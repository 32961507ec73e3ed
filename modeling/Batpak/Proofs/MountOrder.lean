/-
Module: Batpak.Proofs.MountOrder
Purpose: What of a composed host depends on the mount order: only the digest of the composition
  schemas, and that exactly when two modules share one.
Trusted boundary: the canonical encoder accepts the views of a host
Main exports: compose_of_composable, compose_perm
-/
import Batpak.Hostbat.Host
import Batpak.Proofs.ModuleDigest

namespace Batpak.Hostbat

open Batpak.Util
open Batpak.Syncbat (OperationDescriptor OperationEffectRow)

/-! ### Aggregated schemas -/

/-- Declarations of one schema identity have one content hash. -/
def Agree (declarations : List CompositionSchema) : Prop :=
  ∀ e ∈ declarations, ∀ f ∈ declarations, e.key = f.key →
    e.descriptor.encoding = f.descriptor.encoding

/-- The first declaration of each identity, in the order of identities. -/
def aggregate (declarations : List CompositionSchema) : List CompositionSchema :=
  sortOn CompositionSchema.key (firstsOn CompositionSchema.key declarations)

section Aggregation

variable {declarations declarations' : List CompositionSchema} {entries : List CompositionSchema}
  {module : String} {d : SchemaDescriptor}

theorem Agree.subset (h : Agree declarations') (hsub : declarations ⊆ declarations') :
    Agree declarations :=
  fun e he f hf => h e (hsub he) f (hsub hf)

theorem mem_of_mem_aggregate {e : CompositionSchema} (h : e ∈ aggregate declarations) :
    e ∈ declarations :=
  mem_of_mem_firstsOn (mem_sortOn.mp h)

theorem exists_mem_aggregate {e : CompositionSchema} (h : e ∈ declarations) :
    ∃ f ∈ aggregate declarations, f.key = e.key := by
  obtain ⟨f, hf, hkey⟩ := @exists_mem_firstsOn _ _ _ CompositionSchema.key _ _ h
  exact ⟨f, mem_sortOn.mpr hf, hkey⟩

theorem sortedOn_aggregate : SortedOn CompositionSchema.key (aggregate declarations) :=
  sortedOn_sortOn (nodup_firstsOn _ _)

theorem agree_concat_iff {e : CompositionSchema} (h : Agree declarations) :
    Agree (declarations ++ [e]) ↔ ∀ f ∈ declarations, f.key = e.key →
      f.descriptor.encoding = e.descriptor.encoding := by
  constructor
  · intro hall f hf hkey
    exact hall f (List.mem_append_left _ hf) e (List.mem_append_right _ List.mem_cons_self) hkey
  · intro hnew f hf g hg hkey
    rcases List.mem_append.mp hf with hf | hf <;> rcases List.mem_append.mp hg with hg | hg
    · exact h f hf g hg hkey
    · cases List.mem_singleton.mp hg
      exact hnew f hf hkey
    · cases List.mem_singleton.mp hf
      exact (hnew g hg hkey.symm).symm
    · rw [List.mem_singleton.mp hf, List.mem_singleton.mp hg]

/-- A declaration is added exactly when it agrees with those before it. -/
theorem addSchema_ok_iff (h : Agree declarations) :
    addSchema module (aggregate declarations) d = .ok entries ↔
      Agree (declarations ++ [⟨d, module⟩]) ∧
        entries = aggregate (declarations ++ [⟨d, module⟩]) := by
  have hconcat := @firstsOn_concat _ _ _ CompositionSchema.key ⟨d, module⟩ declarations
  rw [agree_concat_iff h]
  unfold addSchema
  cases hfound : (aggregate declarations).find? fun e => e.key = d.identityKey with
  | some existing =>
      have hmem := mem_of_mem_aggregate (List.mem_of_find?_eq_some hfound)
      have hkey : existing.key = d.identityKey := by simpa using List.find?_some hfound
      have hsame : aggregate (declarations ++ [⟨d, module⟩]) = aggregate declarations := by
        unfold aggregate
        rw [hconcat, if_pos]
        exact List.mem_map.mpr ⟨existing, hmem, hkey⟩
      rw [hsame]
      dsimp only
      split_ifs with hencoding
      · constructor
        · intro h'
          cases h'
        · rintro ⟨hall, -⟩
          exact absurd (hall existing hmem hkey) hencoding
      · constructor
        · intro h'
          cases h'
          refine ⟨?_, rfl⟩
          intro f hf hfkey
          rw [h f hf existing hmem (hfkey.trans hkey.symm)]
          exact not_not.mp hencoding
        · rintro ⟨-, rfl⟩
          rfl
  | none =>
      have hnew : CompositionSchema.key ⟨d, module⟩ ∉ declarations.map CompositionSchema.key := by
        intro hmem
        obtain ⟨e, he, hkey⟩ := List.mem_map.mp hmem
        obtain ⟨f, hf, hfkey⟩ := exists_mem_aggregate he
        have hnone := List.find?_eq_none.mp hfound f hf
        exact hnone (decide_eq_true (hfkey.trans hkey))
      have hmore : insertOn CompositionSchema.key ⟨d, module⟩ (aggregate declarations) =
          aggregate (declarations ++ [⟨d, module⟩]) := by
        unfold aggregate
        rw [hconcat, if_neg hnew]
        apply insertOn_sortOn (nodup_firstsOn _ _)
        intro hmem
        exact hnew (mem_map_firstsOn.mp hmem)
      dsimp only
      rw [hmore]
      constructor
      · intro h'
        cases h'
        refine ⟨?_, rfl⟩
        intro f hf hkey
        exact absurd (List.mem_map.mpr ⟨f, hf, hkey⟩) hnew
      · rintro ⟨-, rfl⟩
        rfl

theorem addSchemas_ok_iff {schemas : List SchemaDescriptor} (h : Agree declarations) :
    schemas.foldlM (addSchema module) (aggregate declarations) = .ok entries ↔
      Agree (declarations ++ schemas.map fun s => ⟨s, module⟩) ∧
        entries = aggregate (declarations ++ schemas.map fun s => ⟨s, module⟩) := by
  induction schemas using List.reverseRecOn generalizing entries with
  | nil =>
      rw [List.map_nil, List.append_nil]
      constructor
      · intro h'
        cases h'
        exact ⟨h, rfl⟩
      · rintro ⟨-, rfl⟩
        rfl
  | append_singleton schemas d ih =>
      rw [foldlM_concat_ok_iff, List.map_append, List.map_singleton, ← List.append_assoc]
      constructor
      · rintro ⟨middle, hbefore, hlast⟩
        obtain ⟨hagree, rfl⟩ := ih.mp hbefore
        exact (addSchema_ok_iff hagree).mp hlast
      · rintro ⟨hagree, rfl⟩
        have hbefore := hagree.subset (List.subset_append_left _ _)
        exact ⟨_, ih.mpr ⟨hbefore, rfl⟩, (addSchema_ok_iff hbefore).mpr ⟨hagree, rfl⟩⟩

end Aggregation

/-! ### Mounting -/

section Mounting

variable {ι : Type}

/-- The schemas the modules declare, each with its module. -/
def declarations (ms : List (HostModule ι)) : List CompositionSchema :=
  ms.flatMap fun m => m.manifest.schemas.map fun s => ⟨s, m.manifest.id⟩

def operationsOf (ms : List (HostModule ι)) : List OperationDescriptor :=
  ms.flatMap fun m => m.manifest.operations

def subscriptionsOf (ms : List (HostModule ι)) : List (String × SubscriptionDescriptor) :=
  ms.flatMap fun m => m.manifest.subscriptions.map fun s => (m.manifest.id, s)

def bindingsOf (ms : List (HostModule ι)) : List (String × EventPayloadBinding) :=
  ms.flatMap fun m => m.manifest.eventPayloadBindings.map fun b => (m.manifest.id, b)

def namespacesOf (ms : List (HostModule ι)) : List (String × String) :=
  ms.flatMap fun m => m.manifest.receiptNamespaces.map fun name => (name, m.manifest.id)

def jobsOf (ms : List (HostModule ι)) : List (String × String) :=
  ms.flatMap fun m => m.manifest.jobs.map fun j => (j.kind, m.manifest.id)

/-- What mounting checks of the modules as a whole. -/
structure Mountable (codec : HostCodec) (ms : List (HostModule ι)) : Prop where
  attested : ∀ m ∈ ms, m.manifest.verifyHash codec.toCodec = .ok true
  ids : (ms.map fun m => m.manifest.id).Nodup
  operations : ((operationsOf ms).map OperationDescriptor.name).Nodup
  receiptNamespaces : ((namespacesOf ms).map Prod.fst).Nodup
  jobs : ((jobsOf ms).map Prod.fst).Nodup
  subscriptions : ((subscriptionsOf ms).map fun s => s.2.id).Nodup
  bindings : ((bindingsOf ms).map fun b => b.2.kindRaw).Nodup
  schemas : Agree (declarations ms)

/-- The builder after mounting these modules. -/
def mounted (ms : List (HostModule ι)) : HostBuilder ι where
  modules := ms
  moduleIds := ms.map fun m => m.manifest.id
  operationEffectRows := (operationsOf ms).map fun d => (d.name, d.effectRow)
  receiptNamespaces := namespacesOf ms
  jobOwners := jobsOf ms
  subscriptionOwners := (subscriptionsOf ms).map fun s => (s.2.id, s.1)
  eventPayloadBindings := (bindingsOf ms).map fun b => (b.2.kindRaw, b.1, b.2.payloadSchemaRef)
  schemas := aggregate (declarations ms)

variable {codec : HostCodec} {ms ms' : List (HostModule ι)} {m : HostModule ι} {b : HostBuilder ι}

theorem Mountable.of_concat (h : Mountable codec (ms ++ [m])) : Mountable codec ms := by
  have hsub : ∀ {α : Type} (f : HostModule ι → List α),
      (ms.flatMap f).Sublist ((ms ++ [m]).flatMap f) := by
    intro α f
    rw [List.flatMap_append]
    exact List.sublist_append_left _ _
  exact {
    attested := fun m' hm' => h.attested m' (List.mem_append_left _ hm')
    ids := h.ids.sublist ((List.sublist_append_left ms [m]).map _)
    operations := h.operations.sublist ((hsub _).map _)
    receiptNamespaces := h.receiptNamespaces.sublist ((hsub _).map _)
    jobs := h.jobs.sublist ((hsub _).map _)
    subscriptions := h.subscriptions.sublist ((hsub _).map _)
    bindings := h.bindings.sublist ((hsub _).map _)
    schemas := h.schemas.subset (hsub _).subset }

theorem Mountable.perm (h : Mountable codec ms) (hperm : ms.Perm ms') : Mountable codec ms' where
  attested := fun m hm => h.attested m (hperm.mem_iff.mpr hm)
  ids := (hperm.map _).nodup_iff.mp h.ids
  operations := ((hperm.flatMap_right _).map _).nodup_iff.mp h.operations
  receiptNamespaces := ((hperm.flatMap_right _).map _).nodup_iff.mp h.receiptNamespaces
  jobs := ((hperm.flatMap_right _).map _).nodup_iff.mp h.jobs
  subscriptions := ((hperm.flatMap_right _).map _).nodup_iff.mp h.subscriptions
  bindings := ((hperm.flatMap_right _).map _).nodup_iff.mp h.bindings
  schemas := h.schemas.subset (hperm.symm.flatMap_right _).subset

theorem declarations_concat :
    declarations (ms ++ [m]) =
      declarations ms ++ m.manifest.schemas.map fun s => ⟨s, m.manifest.id⟩ := by
  simp [declarations]

@[simp] theorem keys_operationEffectRows :
    (mounted ms).operationEffectRows.map Prod.fst =
      (operationsOf ms).map OperationDescriptor.name := by
  simp [mounted, Function.comp_def]

@[simp] theorem keys_subscriptionOwners :
    (mounted ms).subscriptionOwners.map Prod.fst = (subscriptionsOf ms).map fun s => s.2.id := by
  simp [mounted, Function.comp_def]

@[simp] theorem keys_eventPayloadBindings :
    (mounted ms).eventPayloadBindings.map Prod.fst =
      (bindingsOf ms).map fun b => b.2.kindRaw := by
  simp [mounted, Function.comp_def]

/-- Claiming more keys than are held. -/
theorem claimMore_ok_iff {α κ ν : Type} [DecidableEq κ] {entry : α → κ × ν}
    (refuse : ν → α → HostError) {held all : List (κ × ν)} {xs : List α}
    (hheld : (held.map Prod.fst).Nodup) (hall : all = held ++ xs.map entry) (t : List (κ × ν)) :
    xs.foldlM (claim entry refuse) held = .ok t ↔ (all.map Prod.fst).Nodup ∧ t = all := by
  subst hall
  exact claimAll_ok_iff hheld

/-- A module is mounted on others exactly when it is mountable with them. -/
theorem mount_ok_iff (hms : Mountable codec ms) :
    (mounted ms).mount codec m = .ok b ↔
      Mountable codec (ms ++ [m]) ∧ b = mounted (ms ++ [m]) := by
  have hrows : (mounted (ms ++ [m])).operationEffectRows = (mounted ms).operationEffectRows ++
      m.manifest.operations.map fun d => (d.name, d.effectRow) := by
    simp [mounted, operationsOf]
  have hnames : namespacesOf (ms ++ [m]) = namespacesOf ms ++
      m.manifest.receiptNamespaces.map fun name => (name, m.manifest.id) := by
    simp [namespacesOf]
  have hjobs : jobsOf (ms ++ [m]) = jobsOf ms ++
      m.manifest.jobs.map fun j => (j.kind, m.manifest.id) := by
    simp [jobsOf]
  have hsubs : (mounted (ms ++ [m])).subscriptionOwners = (mounted ms).subscriptionOwners ++
      m.manifest.subscriptions.map fun s => (s.id, m.manifest.id) := by
    simp [mounted, subscriptionsOf, Function.comp_def]
  have hbinds : (mounted (ms ++ [m])).eventPayloadBindings =
      (mounted ms).eventPayloadBindings ++
        m.manifest.eventPayloadBindings.map fun e =>
          (e.kindRaw, m.manifest.id, e.payloadSchemaRef) := by
    simp [mounted, bindingsOf, Function.comp_def]
  have hids : ((ms ++ [m]).map fun m => m.manifest.id).Nodup ↔
      m.manifest.id ∉ (mounted ms).moduleIds := by
    rw [List.map_append, List.map_singleton, nodup_concat]
    exact ⟨fun h => h.2, fun h => ⟨hms.ids, h⟩⟩
  have hoperations := claimMore_ok_iff (refuseOperation m.manifest.id)
    (keys_operationEffectRows ▸ hms.operations) hrows
  have hnamespaces := claimMore_ok_iff
    (fun _ name => .duplicateReceiptNamespace name m.manifest.id) hms.receiptNamespaces hnames
  have hkinds := claimMore_ok_iff (fun _ (j : JobDescriptor) => .duplicateJobKind j.kind
    m.manifest.id) hms.jobs hjobs
  have hsubscriptions := claimMore_ok_iff (fun _ (s : SubscriptionDescriptor) =>
    .duplicateSubscriptionId s.id m.manifest.id) (keys_subscriptionOwners ▸ hms.subscriptions) hsubs
  have hbindings := claimMore_ok_iff (refuseBinding m.manifest.id)
    (keys_eventPayloadBindings ▸ hms.bindings) hbinds
  have hschemas := fun entries => @addSchemas_ok_iff _ entries m.manifest.id
    m.manifest.schemas hms.schemas
  simp only [keys_operationEffectRows] at hoperations
  simp only [keys_subscriptionOwners] at hsubscriptions
  simp only [keys_eventPayloadBindings] at hbindings
  simp only [← declarations_concat] at hschemas
  constructor
  · intro h
    obtain ⟨verified, hverified, h⟩ := bindOk_iff.mp h
    split_ifs at h with hfalse hid
    obtain ⟨rows, hrowsOk, h⟩ := bindOk_iff.mp h
    obtain ⟨names, hnamesOk, h⟩ := bindOk_iff.mp h
    obtain ⟨jobs, hjobsOk, h⟩ := bindOk_iff.mp h
    obtain ⟨subs, hsubsOk, h⟩ := bindOk_iff.mp h
    obtain ⟨binds, hbindsOk, h⟩ := bindOk_iff.mp h
    obtain ⟨schemas, hschemasOk, h⟩ := bindOk_iff.mp h
    cases h
    obtain ⟨hoperations, rfl⟩ := (hoperations _).mp hrowsOk
    obtain ⟨hnamespaces, rfl⟩ := (hnamespaces _).mp hnamesOk
    obtain ⟨hkinds, rfl⟩ := (hkinds _).mp hjobsOk
    obtain ⟨hsubscriptions, rfl⟩ := (hsubscriptions _).mp hsubsOk
    obtain ⟨hbindings, rfl⟩ := (hbindings _).mp hbindsOk
    obtain ⟨hschemas, rfl⟩ := (hschemas _).mp hschemasOk
    refine ⟨⟨?_, hids.mpr hid, hoperations, hnamespaces, hkinds, hsubscriptions, hbindings,
      hschemas⟩, ?_⟩
    · intro m' hm'
      rcases List.mem_append.mp hm' with hm' | hm'
      · exact hms.attested m' hm'
      · rw [List.mem_singleton.mp hm', hverified, Bool.eq_true_of_not_eq_false hfalse]
    · simp [mounted]
  · rintro ⟨h, rfl⟩
    apply bindOk_iff.mpr
    refine ⟨true, h.attested m (List.mem_append_right _ List.mem_cons_self), ?_⟩
    rw [if_neg (by simp), if_neg (hids.mp h.ids)]
    refine bindOk_iff.mpr ⟨_, (hoperations _).mpr ⟨h.operations, rfl⟩, ?_⟩
    refine bindOk_iff.mpr ⟨_, (hnamespaces _).mpr ⟨h.receiptNamespaces, rfl⟩, ?_⟩
    refine bindOk_iff.mpr ⟨_, (hkinds _).mpr ⟨h.jobs, rfl⟩, ?_⟩
    refine bindOk_iff.mpr ⟨_, (hsubscriptions _).mpr ⟨h.subscriptions, rfl⟩, ?_⟩
    refine bindOk_iff.mpr ⟨_, (hbindings _).mpr ⟨h.bindings, rfl⟩, ?_⟩
    refine bindOk_iff.mpr ⟨_, (hschemas _).mpr ⟨h.schemas, rfl⟩, ?_⟩
    simp [mounted]

/-- The modules mount one after another exactly when they are mountable as a whole. -/
theorem mountAll_ok_iff :
    ms.foldlM (HostBuilder.mount codec) {} = .ok b ↔ Mountable codec ms ∧ b = mounted ms := by
  induction ms using List.reverseRecOn generalizing b with
  | nil =>
      have hnone : Mountable codec ([] : List (HostModule ι)) := by
        constructor <;>
          simp [operationsOf, namespacesOf, jobsOf, subscriptionsOf, bindingsOf, declarations,
            Agree]
      constructor
      · intro h
        cases h
        exact ⟨hnone, rfl⟩
      · rintro ⟨-, rfl⟩
        rfl
  | append_singleton ms m ih =>
      rw [foldlM_concat_ok_iff]
      constructor
      · rintro ⟨b', hbefore, hlast⟩
        obtain ⟨hms, rfl⟩ := ih.mp hbefore
        exact (mount_ok_iff hms).mp hlast
      · rintro ⟨h, rfl⟩
        exact ⟨_, ih.mpr ⟨h.of_concat, rfl⟩, (mount_ok_iff h.of_concat).mpr ⟨h, rfl⟩⟩

end Mounting

/-! ### Schema references -/

/-- A schema that a reference may mean. -/
def NamedBy (r : String × SchemaRole) (s : SchemaDescriptor) : Prop :=
  s.id.text = r.1 ∧ s.role = r.2

/-- Some schema is meant, and it is declared in one version only. -/
def Resolves (declarations : List CompositionSchema) (r : String × SchemaRole) : Prop :=
  ∃ e ∈ declarations, NamedBy r e.descriptor ∧
    ∀ f ∈ declarations, NamedBy r f.descriptor → f.descriptor.version = e.descriptor.version

section References

variable {declarations declarations' : List CompositionSchema} {c c' : HostCompositionManifest}
  {r : String × SchemaRole}

theorem identityKey_eq_iff {s t : SchemaDescriptor} :
    s.identityKey = t.identityKey ↔ s.id = t.id ∧ s.version = t.version ∧ s.role = t.role := by
  have hid : s.id.text = t.id.text ↔ s.id = t.id := by
    cases hs : s.id
    cases ht : t.id
    simp
  unfold SchemaDescriptor.identityKey
  simp only [toLex_inj, Prod.mk.injEq, hid, SchemaRole.rank_injective.eq_iff]

theorem NamedBy.congr {s t : SchemaDescriptor} (h : s.identityKey = t.identityKey)
    (hs : NamedBy r s) : NamedBy r t := by
  obtain ⟨hid, -, hrole⟩ := identityKey_eq_iff.mp h
  exact ⟨hid ▸ hs.1, hrole ▸ hs.2⟩

theorem mem_matching {s : SchemaDescriptor} :
    s ∈ c.matching r.1 r.2 ↔ (∃ e ∈ c.schemas, e.descriptor = s) ∧ NamedBy r s := by
  unfold HostCompositionManifest.matching NamedBy
  rw [List.mem_filter, List.mem_map, decide_eq_true_eq]

/-- What a reference may mean differs in version. -/
theorem matching_versions (hsorted : SortedOn CompositionSchema.key c.schemas) :
    ((c.matching r.1 r.2).map SchemaDescriptor.version).Nodup := by
  unfold HostCompositionManifest.matching
  apply List.pairwise_map.mpr
  rw [List.pairwise_filter, List.pairwise_map]
  apply hsorted.imp
  intro e f hlt he hf hversion
  have he := of_decide_eq_true he
  have hf := of_decide_eq_true hf
  have hid : e.descriptor.id = f.descriptor.id := by
    cases hs : e.descriptor.id
    cases ht : f.descriptor.id
    simpa [hs, ht] using he.1.trans hf.1.symm
  have hkey : e.key = f.key :=
    identityKey_eq_iff.mpr ⟨hid, hversion, he.2.trans hf.2.symm⟩
  exact absurd hkey (ne_of_lt hlt)

/-- A reference finds one schema in the aggregation exactly when it resolves in what was
declared. -/
theorem matching_single_iff (hc : c.schemas = aggregate declarations) :
    (∃ s, c.matching r.1 r.2 = [s]) ↔ Resolves declarations r := by
  have hversions := @matching_versions c r (hc ▸ sortedOn_aggregate)
  have hmeant : ∀ f ∈ declarations, NamedBy r f.descriptor →
      ∃ s ∈ c.matching r.1 r.2, s.version = f.descriptor.version := by
    intro f hf hnamed
    obtain ⟨g, hg, hkey⟩ := exists_mem_aggregate hf
    refine ⟨g.descriptor, mem_matching.mpr ⟨⟨g, hc ▸ hg, rfl⟩, hnamed.congr hkey.symm⟩, ?_⟩
    exact (identityKey_eq_iff.mp hkey).2.1
  have hdeclared : ∀ s ∈ c.matching r.1 r.2, ∃ e ∈ declarations,
      e.descriptor = s ∧ NamedBy r s := by
    intro s hs
    obtain ⟨⟨e, he, rfl⟩, hnamed⟩ := mem_matching.mp hs
    exact ⟨e, mem_of_mem_aggregate (hc ▸ he), rfl, hnamed⟩
  constructor
  · rintro ⟨s, hs⟩
    obtain ⟨e, he, rfl, hnamed⟩ := hdeclared s (hs ▸ List.mem_cons_self)
    refine ⟨e, he, hnamed, ?_⟩
    intro f hf hfnamed
    obtain ⟨t, ht, hversion⟩ := hmeant f hf hfnamed
    rw [hs, List.mem_singleton] at ht
    rw [← hversion, ht]
  · rintro ⟨e, he, hnamed, hall⟩
    have hone : ∀ s ∈ c.matching r.1 r.2, s.version = e.descriptor.version := by
      intro s hs
      obtain ⟨f, hf, rfl, hfnamed⟩ := hdeclared s hs
      exact hall f hf hfnamed
    obtain ⟨s, hs, -⟩ := hmeant e he hnamed
    refine ⟨s, ?_⟩
    generalize c.matching r.1 r.2 = found at *
    cases found with
    | nil => cases hs
    | cons t rest =>
        cases rest with
        | nil => rw [List.mem_singleton.mp hs]
        | cons u more =>
            have hsame : t.version = u.version := by
              rw [hone t (by simp), hone u (by simp)]
            rw [List.map_cons, List.map_cons, List.nodup_cons, hsame] at hversions
            exact absurd List.mem_cons_self hversions.1

theorem resolveSchemaRef_ok_iff {module : String} {operation : Option String} :
    (∃ v, resolveSchemaRef module operation r.1 r.2 c = .ok v) ↔
      ∃ s, c.matching r.1 r.2 = [s] := by
  unfold resolveSchemaRef
  generalize c.matching r.1 r.2 = found
  match found with
  | [] => simp
  | [s] => simp
  | s :: t :: rest => simp

/-! ### The identities of an aggregation -/

/-- Two aggregations that list the same identities in the same order. -/
def SameIdentities (c c' : HostCompositionManifest) : Prop :=
  c.schemas.map (fun e => e.descriptor.identity) = c'.schemas.map fun e => e.descriptor.identity

def identityView (i : SchemaId × Nat × SchemaRole × Digest) : SchemaIdentityView :=
  ⟨i.1.text, i.2.1, i.2.2.1.asStr, i.2.2.2⟩

/-- Identities in the order of their keys. -/
def identityOrder (i : SchemaId × Nat × SchemaRole × Digest) : String ×ₗ ℕ ×ₗ ℕ :=
  toLex (i.1.text, toLex (i.2.1, i.2.2.1.rank))

/-- The views of the schemas that satisfy a condition on identities. -/
theorem SameIdentities.views (h : SameIdentities c c')
    (p : SchemaId × Nat × SchemaRole × Digest → Bool) :
    ((c.schemas.map CompositionSchema.descriptor).filter fun s => p s.identity).map
        schemaIdentityView =
      ((c'.schemas.map CompositionSchema.descriptor).filter fun s => p s.identity).map
        schemaIdentityView := by
  have hviews : ∀ d : HostCompositionManifest,
      ((d.schemas.map CompositionSchema.descriptor).filter fun s => p s.identity).map
          schemaIdentityView =
        ((d.schemas.map fun e => e.descriptor.identity).filter p).map identityView := by
    intro d
    rw [List.filter_map, List.filter_map, List.map_map, List.map_map]
    rfl
  rw [hviews c, hviews c', h]

theorem SameIdentities.resolveSchemaRef (h : SameIdentities c c') (module : String)
    (operation : Option String) (reference : String) (role : SchemaRole) :
    resolveSchemaRef module operation reference role c =
      resolveSchemaRef module operation reference role c' := by
  have hviews : (c.matching reference role).map schemaIdentityView =
      (c'.matching reference role).map schemaIdentityView :=
    h.views fun i => decide (i.1.text = reference ∧ i.2.2.1 = role)
  have hversions : (c.matching reference role).map SchemaDescriptor.version =
      (c'.matching reference role).map SchemaDescriptor.version := by
    have hmapped := congrArg (List.map SchemaIdentityView.version) hviews
    rw [List.map_map, List.map_map] at hmapped
    exact hmapped
  unfold Hostbat.resolveSchemaRef
  generalize c.matching reference role = found at *
  generalize c'.matching reference role = found' at *
  match found, found' with
  | [], [] => rfl
  | [s], [t] => simpa using hviews
  | s :: t :: rest, s' :: t' :: rest' =>
      dsimp only
      rw [hversions]
  | [], _ :: _ => simp at hviews
  | _ :: _, [] => simp at hviews
  | [_], _ :: _ :: _ => simp at hviews
  | _ :: _ :: _, [_] => simp at hviews

/-- Declarations in another order aggregate to the same identities. -/
theorem sameIdentities_of_perm (hagree : Agree declarations)
    (hperm : declarations.Perm declarations') (hc : c.schemas = aggregate declarations)
    (hc' : c'.schemas = aggregate declarations') : SameIdentities c c' := by
  have hsorted : ∀ ds, SortedOn identityOrder
      ((aggregate ds).map fun e => e.descriptor.identity) := by
    intro ds
    exact List.pairwise_map.mpr sortedOn_aggregate
  have hmem : ∀ ds, Agree ds → ∀ i, i ∈ (aggregate ds).map (fun e => e.descriptor.identity) ↔
      i ∈ ds.map fun e => e.descriptor.identity := by
    intro ds hds i
    simp only [List.mem_map]
    constructor
    · rintro ⟨e, he, rfl⟩
      exact ⟨e, mem_of_mem_aggregate he, rfl⟩
    · rintro ⟨e, he, rfl⟩
      obtain ⟨f, hf, hkey⟩ := exists_mem_aggregate he
      refine ⟨f, hf, ?_⟩
      obtain ⟨hid, hversion, hrole⟩ := identityKey_eq_iff.mp hkey
      have hencoding := hds f (mem_of_mem_aggregate hf) e he hkey
      unfold SchemaDescriptor.identity
      rw [hid, hversion, hrole, hencoding]
  unfold SameIdentities
  rw [hc, hc']
  apply (hsorted declarations).eq_of_mem_iff (hsorted declarations')
  intro i
  rw [hmem _ hagree, hmem _ (hagree.subset hperm.symm.subset), (hperm.map _).mem_iff]

end References

/-! ### The interface -/

section Interface

variable {ι : Type} {codec : HostCodec} {c c' : HostCompositionManifest}
  {ms ms' : List (HostModule ι)} {m : HostModule ι} {us : List ModuleInterface}

/-- The schemas a module refers to, each in its role. -/
def referencesOf (m : HostModule ι) : List (String × SchemaRole) :=
  (m.manifest.operations.flatMap fun d => [(d.inputSchemaRef, .operationInput),
      (d.outputSchemaRef, .operationOutput), (d.receiptKind, .receiptPayload)]) ++
    (m.manifest.subscriptions.map fun s => (s.payloadSchemaRef, s.requiredPayloadRole)) ++
    m.manifest.eventPayloadBindings.map fun b => (b.payloadSchemaRef, .eventPayload)

/-- A reference that finds exactly one schema. -/
def Found (c : HostCompositionManifest) (r : String × SchemaRole) : Prop :=
  ∃ s, c.matching r.1 r.2 = [s]

theorem operationView_ok_iff {module : String} {d : OperationDescriptor} :
    (∃ v, operationView module c d = .ok v) ↔ Found c (d.inputSchemaRef, .operationInput) ∧
      Found c (d.outputSchemaRef, .operationOutput) ∧ Found c (d.receiptKind, .receiptPayload) := by
  unfold Found
  rw [← @resolveSchemaRef_ok_iff c (d.inputSchemaRef, .operationInput) module (some d.name),
    ← @resolveSchemaRef_ok_iff c (d.outputSchemaRef, .operationOutput) module (some d.name),
    ← @resolveSchemaRef_ok_iff c (d.receiptKind, .receiptPayload) module (some d.name)]
  unfold operationView
  constructor
  · rintro ⟨v, h⟩
    obtain ⟨input, hinput, h⟩ := bindOk_iff.mp h
    obtain ⟨output, houtput, h⟩ := bindOk_iff.mp h
    obtain ⟨receipt, hreceipt, h⟩ := bindOk_iff.mp h
    exact ⟨⟨input, hinput⟩, ⟨output, houtput⟩, ⟨receipt, hreceipt⟩⟩
  · rintro ⟨⟨input, hinput⟩, ⟨output, houtput⟩, ⟨receipt, hreceipt⟩⟩
    dsimp only at hinput houtput hreceipt
    rw [hinput, houtput, hreceipt]
    exact ⟨_, rfl⟩

theorem subscriptionView_ok_iff {module : String} {s : SubscriptionDescriptor} :
    (∃ v, subscriptionView module c s = .ok v) ↔
      Found c (s.payloadSchemaRef, s.requiredPayloadRole) := by
  unfold Found
  rw [← @resolveSchemaRef_ok_iff c (s.payloadSchemaRef, s.requiredPayloadRole) module none]
  unfold subscriptionView
  constructor
  · rintro ⟨v, h⟩
    obtain ⟨payload, hpayload, -⟩ := bindOk_iff.mp h
    exact ⟨payload, hpayload⟩
  · rintro ⟨payload, hpayload⟩
    exact ⟨_, bindOk_iff.mpr ⟨payload, hpayload, rfl⟩⟩

theorem eventPayloadBindingView_ok_iff {module : String} {b : EventPayloadBinding} :
    (∃ v, eventPayloadBindingView module c b = .ok v) ↔
      Found c (b.payloadSchemaRef, .eventPayload) := by
  unfold Found
  rw [← @resolveSchemaRef_ok_iff c (b.payloadSchemaRef, .eventPayload) module none]
  unfold eventPayloadBindingView
  constructor
  · rintro ⟨v, h⟩
    obtain ⟨payload, hpayload, -⟩ := bindOk_iff.mp h
    exact ⟨payload, hpayload⟩
  · rintro ⟨payload, hpayload⟩
    exact ⟨_, bindOk_iff.mpr ⟨payload, hpayload, rfl⟩⟩

/-- A module has an interface exactly when each of its references finds one schema. -/
theorem moduleInterface_ok_iff :
    (∃ u, moduleInterface c m = .ok u) ↔ ∀ r ∈ referencesOf m, Found c r := by
  have hall : (∀ r ∈ referencesOf m, Found c r) ↔
      (∀ d ∈ m.manifest.operations, ∃ v, operationView m.manifest.id c d = .ok v) ∧
      (∀ s ∈ m.manifest.subscriptions, ∃ v, subscriptionView m.manifest.id c s = .ok v) ∧
      (∀ b ∈ m.manifest.eventPayloadBindings,
        ∃ v, eventPayloadBindingView m.manifest.id c b = .ok v) := by
    simp only [operationView_ok_iff, subscriptionView_ok_iff, eventPayloadBindingView_ok_iff,
      referencesOf, List.forall_mem_append, List.forall_mem_flatMap, List.forall_mem_map,
      List.forall_mem_cons, List.not_mem_nil, false_implies, implies_true, and_true, and_assoc]
  rw [hall, ← exists_mapM_ok_iff, ← exists_mapM_ok_iff, ← exists_mapM_ok_iff]
  unfold moduleInterface
  constructor
  · rintro ⟨u, h⟩
    obtain ⟨ops, hops, h⟩ := bindOk_iff.mp h
    obtain ⟨subs, hsubs, h⟩ := bindOk_iff.mp h
    obtain ⟨binds, hbinds, h⟩ := bindOk_iff.mp h
    exact ⟨⟨ops, hops⟩, ⟨subs, hsubs⟩, ⟨binds, hbinds⟩⟩
  · rintro ⟨⟨ops, hops⟩, ⟨subs, hsubs⟩, ⟨binds, hbinds⟩⟩
    rw [hops, hsubs, hbinds]
    exact ⟨_, rfl⟩

/-- The interface of a module depends on the identities of the schemas only. -/
theorem SameIdentities.moduleInterface (h : SameIdentities c c') (m : HostModule ι) :
    moduleInterface c m = moduleInterface c' m := by
  have hops : operationView m.manifest.id c = operationView m.manifest.id c' := by
    funext d
    simp only [operationView, h.resolveSchemaRef]
  have hsubs : subscriptionView m.manifest.id c = subscriptionView m.manifest.id c' := by
    funext s
    simp only [subscriptionView, h.resolveSchemaRef]
  have hbinds : eventPayloadBindingView m.manifest.id c =
      eventPayloadBindingView m.manifest.id c' := by
    funext b
    simp only [eventPayloadBindingView, h.resolveSchemaRef]
  unfold Hostbat.moduleInterface
  rw [hops, hsubs, hbinds]

theorem SameIdentities.exportedEventPayloads (h : SameIdentities c c') :
    exportedEventPayloads c = exportedEventPayloads c' := by
  unfold Hostbat.exportedEventPayloads
  exact congrArg _ (h.views fun i => decide (i.2.2.1 = .eventPayload))

/-- The interface of a module names its operations, subscriptions and event kinds. -/
theorem moduleInterface_names {u : ModuleInterface} (h : moduleInterface c m = .ok u) :
    u.operations.map InterfaceOperationView.name =
        m.manifest.operations.map OperationDescriptor.name ∧
      u.subscriptions.map InterfaceSubscriptionView.id =
        m.manifest.subscriptions.map SubscriptionDescriptor.id ∧
      u.eventPayloadBindings.map InterfaceEventPayloadBindingView.kind =
        m.manifest.eventPayloadBindings.map EventPayloadBinding.kindRaw := by
  obtain ⟨ops, hops, h⟩ := bindOk_iff.mp h
  obtain ⟨subs, hsubs, h⟩ := bindOk_iff.mp h
  obtain ⟨binds, hbinds, h⟩ := bindOk_iff.mp h
  cases h
  refine ⟨map_eq_of_mapM_ok hops ?_, map_eq_of_mapM_ok hsubs ?_, map_eq_of_mapM_ok hbinds ?_⟩
  · intro d v hv
    obtain ⟨_, -, hv⟩ := bindOk_iff.mp hv
    obtain ⟨_, -, hv⟩ := bindOk_iff.mp hv
    obtain ⟨_, -, hv⟩ := bindOk_iff.mp hv
    cases hv
    rfl
  · intro s v hv
    obtain ⟨_, -, hv⟩ := bindOk_iff.mp hv
    cases hv
    rfl
  · intro b v hv
    obtain ⟨_, -, hv⟩ := bindOk_iff.mp hv
    cases hv
    rfl

/-- A sort by a pair whose second part repeats for no two elements. -/
theorem nodup_pair {α κ κ' : Type} {first : α → κ} {second : α → κ'} {l : List α}
    (h : (l.map second).Nodup) : (l.map fun a => toLex (first a, second a)).Nodup := by
  apply List.pairwise_map.mpr
  apply (List.pairwise_map.mp h).imp
  intro a b hne heq
  exact hne (Prod.mk.inj (toLex_inj.mp heq)).2

/-- Modules in another order have the same interface. -/
theorem interfaceView_perm (hms : Mountable codec ms) (hperm : ms.Perm ms')
    (hsame : SameIdentities c c') (h : ms.mapM (moduleInterface c) = .ok us) :
    ∃ us', ms'.mapM (moduleInterface c') = .ok us' ∧
      interfaceView us' c' = interfaceView us c := by
  obtain ⟨us', hus', hus⟩ := mapM_ok_of_perm hperm h
  have hfun : moduleInterface (ι := ι) c = moduleInterface c' := funext hsame.moduleInterface
  refine ⟨us', hfun ▸ hus', ?_⟩
  have hops : (us.flatMap (·.operations)).map InterfaceOperationView.name =
      (operationsOf ms).map OperationDescriptor.name :=
    flatMap_eq_of_mapM_ok h fun m u hu => (moduleInterface_names hu).1
  have hsubs : (us.flatMap (·.subscriptions)).map InterfaceSubscriptionView.id =
      (subscriptionsOf ms).map fun s => s.2.id := by
    apply flatMap_eq_of_mapM_ok h
    intro m u hu
    rw [(moduleInterface_names hu).2.1, List.map_map]
    rfl
  have hbinds : (us.flatMap (·.eventPayloadBindings)).map InterfaceEventPayloadBindingView.kind =
      (bindingsOf ms).map fun b => b.2.kindRaw := by
    apply flatMap_eq_of_mapM_ok h
    intro m u hu
    rw [(moduleInterface_names hu).2.2, List.map_map]
    rfl
  unfold interfaceView
  rw [hsame.exportedEventPayloads,
    sortOn_eq_of_perm (nodup_pair (hops ▸ hms.operations)) (hus.flatMap_right _),
    sortOn_eq_of_perm (nodup_pair (hsubs ▸ hms.subscriptions)) (hus.flatMap_right _),
    sortOn_eq_of_perm (nodup_pair (hbinds ▸ hms.bindings)) (hus.flatMap_right _)]

end Interface

/-! ### Lowering -/

section Lowering

variable {ι : Type} {codec : HostCodec} {ms : List (HostModule ι)} {m : HostModule ι}

/-- What building a module guarantees of it. -/
structure WellFormed (m : HostModule ι) : Prop where
  handlers : m.handlers.map Prod.fst = m.manifest.operations.map OperationDescriptor.name
  valid : ∀ d ∈ m.manifest.operations, d.validate = .ok ()
  hooks : (m.hooks.map fun k => k.1.slot).Nodup
  schemas : (m.manifest.schemas.map SchemaDescriptor.identityKey).Nodup

theorem Built.wellFormed (h : Built codec.toCodec m) : WellFormed m := by
  obtain ⟨id, version, parts, hrun⟩ := h
  obtain ⟨b, hregister, hbuild⟩ := bindOk_iff.mp hrun
  obtain ⟨hD, rfl⟩ := registerAll_ok_iff.mp hregister
  obtain ⟨hcollisions, -, hparts, hhandlers, hhooks⟩ := build_ok hbuild
  have hoperations : m.manifest.operations =
      (sortOn (fun o => o.1.name) (declared parts).operations).map Prod.fst :=
    congrArg SealedParts.operations hparts
  have hschemas : m.manifest.schemas =
      sortOn SchemaDescriptor.identityKey (declared parts).schemas :=
    congrArg SealedParts.schemas hparts
  constructor
  · rw [hhandlers, hoperations, List.map_map, List.map_map]
    rfl
  · intro d hd
    rw [hoperations] at hd
    obtain ⟨o, ho, rfl⟩ := List.mem_map.mp hd
    exact hD.valid o (mem_sortOn.mp ho)
  · rw [hhooks]
    exact ((perm_sortOn _ _).map _).nodup_iff.mpr (hooks_sorted hcollisions)
  · rw [hschemas]
    exact (sortedOn_sortOn hD.schemas).nodup_map

/-- The runtime holds these operations and a handler for each. -/
structure CoreHolds (core : CoreBuilder ι) (ds : List OperationDescriptor) : Prop where
  descriptors : core.descriptors = sortOn OperationDescriptor.name ds
  handlers : ∃ hs : List (String × ι), hs.map Prod.fst = ds.map OperationDescriptor.name ∧
    core.handlers = sortOn Prod.fst hs

theorem CoreHolds.registerBoxed {core : CoreBuilder ι} {ds : List OperationDescriptor}
    {d : OperationDescriptor} {handler : ι} (h : CoreHolds core ds) (hvalid : d.validate = .ok ())
    (hnodup : ((ds ++ [d]).map OperationDescriptor.name).Nodup) :
    ∃ core', core.registerBoxed d handler = .ok core' ∧ CoreHolds core' (ds ++ [d]) := by
  obtain ⟨hs, hnames, hhandlers⟩ := h.handlers
  have hds : (ds.map OperationDescriptor.name).Nodup := by
    rw [List.map_append] at hnodup
    exact (List.nodup_append.mp hnodup).1
  have hmore : (hs ++ [(d.name, handler)]).map Prod.fst =
      (ds ++ [d]).map OperationDescriptor.name := by
    rw [List.map_append, List.map_append, hnames]
    rfl
  refine ⟨⟨sortOn OperationDescriptor.name (ds ++ [d]),
    sortOn Prod.fst (hs ++ [(d.name, handler)])⟩, ?_, rfl, _, hmore, rfl⟩
  unfold CoreBuilder.registerBoxed
  rw [h.descriptors, hhandlers]
  refine bindOk_iff.mpr ⟨(), mapError_ok_iff.mpr hvalid, ?_⟩
  refine bindOk_iff.mpr ⟨_, (insertOrRefuse_ok_iff hds).mpr ⟨hnodup, rfl⟩, ?_⟩
  exact bindOk_iff.mpr
    ⟨_, (insertOrRefuse_ok_iff (hnames ▸ hds)).mpr ⟨hmore ▸ hnodup, rfl⟩, rfl⟩

theorem CoreHolds.build {core : CoreBuilder ι} {ds : List OperationDescriptor}
    (h : CoreHolds core ds) : core.build = .ok core := by
  obtain ⟨hs, hnames, hhandlers⟩ := h.handlers
  have hsame : ∀ name, name ∈ core.descriptors.map OperationDescriptor.name ↔
      name ∈ core.handlers.map Prod.fst := by
    intro name
    rw [h.descriptors, hhandlers, mem_map_sortOn, mem_map_sortOn, hnames]
  have hno : core.descriptors.find? (fun d => d.name ∉ core.handlers.map Prod.fst) = none := by
    apply List.find?_eq_none.mpr
    intro d hd
    simpa using (hsame d.name).mp (List.mem_map_of_mem hd)
  have hno' : core.handlers.find?
      (fun k => k.1 ∉ core.descriptors.map OperationDescriptor.name) = none := by
    apply List.find?_eq_none.mpr
    intro k hk
    simpa using (hsame k.1).mpr (List.mem_map_of_mem hk)
  unfold CoreBuilder.build
  rw [hno]
  dsimp only
  rw [hno']

/-- The operations of a module are lowered one after another, each with its handler. -/
theorem lowerOperations_ok {module : String} {ops ds : List OperationDescriptor}
    {handlers : List (String × ι)} {core : CoreBuilder ι} (hcore : CoreHolds core ds)
    (hnodup : ((ds ++ ops).map OperationDescriptor.name).Nodup)
    (hvalid : ∀ d ∈ ops, d.validate = .ok ())
    (hhandlers : ∀ d ∈ ops, d.name ∈ handlers.map Prod.fst) :
    ∃ s, ops.foldlM (lowerOperation codec module) (handlers, core) = .ok s ∧
      CoreHolds s.2 (ds ++ ops) := by
  induction ops generalizing ds handlers core with
  | nil => exact ⟨(handlers, core), rfl, (List.append_nil ds).symm ▸ hcore⟩
  | cons d rest ih =>
      have hreorder : ds ++ d :: rest = (ds ++ [d]) ++ rest := by simp
      rw [hreorder] at hnodup
      have hsplit := List.nodup_append.mp (List.map_append ▸ hnodup)
      obtain ⟨k, hk, hname⟩ := List.mem_map.mp (hhandlers d List.mem_cons_self)
      have hfound : ∃ handler, handlers.lookup d.name = some handler := by
        cases hlookup : handlers.lookup d.name with
        | some handler => exact ⟨handler, rfl⟩
        | none =>
            have habsent := lookup_eq_none_iff_notMem.mp hlookup
            exact absurd (List.mem_map.mpr ⟨k, hk, hname⟩) habsent
      obtain ⟨handler, hhandler⟩ := hfound
      obtain ⟨core', hregister, hcore'⟩ :=
        @CoreHolds.registerBoxed _ _ _ _ handler hcore (hvalid d List.mem_cons_self) hsplit.1
      have hstep : lowerOperation codec module (handlers, core) d =
          .ok (handlers.filter fun h => h.1 ≠ d.name, core') := by
        unfold lowerOperation
        rw [hhandler]
        dsimp only
        rw [hregister]
        rfl
      have hrest : ∀ e ∈ rest, e.name ∈ (handlers.filter fun h => h.1 ≠ d.name).map Prod.fst := by
        intro e he
        obtain ⟨k', hk', hname'⟩ := List.mem_map.mp (hhandlers e (List.mem_cons_of_mem _ he))
        refine List.mem_map.mpr ⟨k', List.mem_filter.mpr ⟨hk', ?_⟩, hname'⟩
        apply decide_eq_true
        rw [hname']
        intro heq
        refine hsplit.2.2 d.name ?_ e.name (List.mem_map_of_mem he) heq.symm
        simp
      obtain ⟨s, hs, hholds⟩ :=
        ih hcore' hnodup (fun e he => hvalid e (List.mem_cons_of_mem _ he)) hrest
      rw [hreorder, List.foldlM_cons]
      exact ⟨s, bindOk_iff.mpr ⟨_, hstep, hs⟩, hholds⟩

/-- What comes out of lowering the modules. -/
structure LoweredAs (ms : List (HostModule ι)) (lowered : LoweredModules ι) : Prop where
  core : CoreHolds lowered.core (operationsOf ms)
  startup : lowered.startup = ms.flatMap (hooksIn .startup)
  shutdown : lowered.shutdown = ms.flatMap (hooksIn .shutdown)
  operations : lowered.operationDescriptors = operationsOf ms
  subscriptions : lowered.subscriptions = subscriptionsOf ms
  bindings : lowered.eventPayloadBindings = bindingsOf ms

theorem lowerModules_ok (hms : Mountable codec ms) (hformed : ∀ m ∈ ms, WellFormed m) :
    ∃ lowered, lowerModules codec ms = .ok lowered ∧ LoweredAs ms lowered := by
  induction ms using List.reverseRecOn with
  | nil => exact ⟨{}, rfl, ⟨⟨rfl, [], rfl, rfl⟩, rfl, rfl, rfl, rfl, rfl⟩⟩
  | append_singleton ms m ih =>
      obtain ⟨lowered, hlowered, hbefore⟩ :=
        ih hms.of_concat fun m' hm' => hformed m' (List.mem_append_left _ hm')
      have hm := hformed m (List.mem_append_right _ List.mem_cons_self)
      have hoperations : operationsOf (ms ++ [m]) = operationsOf ms ++ m.manifest.operations := by
        simp [operationsOf]
      obtain ⟨s, hs, hcore⟩ := @lowerOperations_ok ι codec m.manifest.id _ _ m.handlers _
        hbefore.core (hoperations ▸ hms.operations) hm.valid
        fun d hd => hm.handlers ▸ List.mem_map_of_mem hd
      refine ⟨_, foldlM_concat_ok_iff.mpr ⟨lowered, hlowered, bindOk_iff.mpr ⟨s, hs, rfl⟩⟩, ?_⟩
      constructor
      · exact hoperations ▸ hcore
      · simp [hbefore.startup]
      · simp [hbefore.shutdown]
      · simp [hbefore.operations, operationsOf]
      · simp [hbefore.subscriptions, subscriptionsOf]
      · simp [hbefore.bindings, bindingsOf]

end Lowering

/-! ### Composing -/

/-- The canonical encoder accepts every view of a host. -/
structure HostCodec.Accepts (codec : HostCodec) : Prop where
  composition : ∀ v, ∃ bytes, codec.compositionBytes v = .ok bytes
  interface : ∀ v, ∃ bytes, codec.interfaceBytes v = .ok bytes
  fingerprint : ∀ v, ∃ bytes, codec.fingerprintBytes v = .ok bytes

section Composing

variable {ι : Type} {codec : HostCodec} {ms ms' : List (HostModule ι)} {host host' : Host ι}

/-- What the modules must satisfy to compose. -/
structure Composable (codec : HostCodec) (ms : List (HostModule ι)) : Prop where
  nonempty : ms ≠ []
  mountable : Mountable codec ms
  resolves : ∀ m ∈ ms, ∀ r ∈ referencesOf m, Resolves (declarations ms) r

/-- What a host is made of. -/
structure ComposedAs (codec : HostCodec) (ms : List (HostModule ι)) (host : Host ι) : Prop where
  fingerprint : computeFingerprint codec ms = .ok host.fingerprint
  schemas : host.compositionSchemas.schemas = aggregate (declarations ms)
  digest : canonicalDigest codec.computeHash (codec.compositionBytes
    (compositionView (aggregate (declarations ms)))) = .ok host.compositionSchemas.digest
  interface : ∃ us, ms.mapM (moduleInterface host.compositionSchemas) = .ok us ∧
    canonicalDigest codec.computeHash (codec.interfaceBytes
      (interfaceView us host.compositionSchemas)) = .ok host.interfaceFingerprint
  operations : host.operations = sortOn OperationDescriptor.name (operationsOf ms)
  subscriptions : host.subscriptions =
    sortOn (fun s => toLex (s.1, s.2.id)) (subscriptionsOf ms)
  bindings : host.eventPayloadBindings =
    sortOn (fun b => toLex (b.1, b.2.kindRaw)) (bindingsOf ms)
  startup : host.startup = sortOn HostHook.orderKey (ms.flatMap (hooksIn .startup))
  shutdown : host.shutdown = sortOn HostHook.orderKey (ms.flatMap (hooksIn .shutdown))

theorem canonicalDigest_ok {computeHash : Bytes → Digest} {bytes : Bytes} :
    canonicalDigest computeHash (.ok bytes) = .ok (computeHash bytes) := rfl

theorem found_iff {c : HostCompositionManifest} {r : String × SchemaRole} {e : HostError} :
    (match c.matching r.1 r.2 with
      | [_] => Except.ok ()
      | _ => .error e) = .ok () ↔ Found c r := by
  unfold Found
  generalize c.matching r.1 r.2 = found
  match found with
  | [] => simp
  | [s] => simp
  | s :: t :: rest => simp

theorem validateSubscriptionPayloadSchemas_ok_iff {c : HostCompositionManifest} :
    validateSubscriptionPayloadSchemas ms c = .ok () ↔ ∀ m ∈ ms, ∀ s ∈ m.manifest.subscriptions,
      Found c (s.payloadSchemaRef, s.requiredPayloadRole) := by
  unfold validateSubscriptionPayloadSchemas
  simp only [forM_ok_iff]
  constructor
  · intro h m hm s hs
    exact found_iff.mp (h m hm s hs)
  · intro h m hm s hs
    exact found_iff.mpr (h m hm s hs)

theorem validateEventPayloadBindings_ok_iff {c : HostCompositionManifest} :
    validateEventPayloadBindings ms c = .ok () ↔ ∀ m ∈ ms, ∀ b ∈ m.manifest.eventPayloadBindings,
      Found c (b.payloadSchemaRef, .eventPayload) := by
  unfold validateEventPayloadBindings
  simp only [forM_ok_iff]
  constructor
  · intro h m hm b hb
    exact @found_iff c (b.payloadSchemaRef, .eventPayload) _ |>.mp (h m hm b hb)
  · intro h m hm b hb
    exact @found_iff c (b.payloadSchemaRef, .eventPayload) _ |>.mpr (h m hm b hb)

theorem compose_ok (hformed : ∀ m ∈ ms, WellFormed m) (h : compose codec ms = .ok host) :
    Composable codec ms ∧ ComposedAs codec ms host := by
  obtain ⟨b, hmount, h⟩ := bindOk_iff.mp h
  obtain ⟨hms, rfl⟩ := mountAll_ok_iff.mp hmount
  unfold HostBuilder.build at h
  split_ifs at h with hempty
  obtain ⟨fingerprint, hfingerprint, h⟩ := bindOk_iff.mp h
  obtain ⟨composition, hcomposition, h⟩ := bindOk_iff.mp h
  obtain ⟨⟨⟩, -, h⟩ := bindOk_iff.mp h
  obtain ⟨⟨⟩, -, h⟩ := bindOk_iff.mp h
  obtain ⟨interface, hinterface, h⟩ := bindOk_iff.mp h
  obtain ⟨lowered, hlowered, h⟩ := bindOk_iff.mp h
  obtain ⟨core, hcore, h⟩ := bindOk_iff.mp h
  obtain ⟨digest, hdigest, hsealed⟩ := bindOk_iff.mp hcomposition
  cases hsealed
  obtain ⟨us, hus, hdigested⟩ := bindOk_iff.mp hinterface
  obtain ⟨lowered', hlowered', has⟩ := lowerModules_ok hms hformed
  cases Except.ok.inj (hlowered.symm.trans hlowered')
  cases h
  constructor
  · refine ⟨?_, hms, ?_⟩
    · rintro rfl
      exact hempty rfl
    · intro m hm r hr
      have hparts := exists_mapM_ok_iff.mp ⟨us, hus⟩ m hm
      exact (@matching_single_iff _ ⟨_, digest⟩ r rfl).mp
        (moduleInterface_ok_iff.mp hparts r hr)
  · exact {
      fingerprint := hfingerprint
      schemas := rfl
      digest := hdigest
      interface := ⟨us, hus, hdigested⟩
      operations := has.operations ▸ rfl
      subscriptions := has.subscriptions ▸ rfl
      bindings := has.bindings ▸ rfl
      startup := has.startup ▸ rfl
      shutdown := has.shutdown ▸ rfl }

theorem compose_of_composable (haccepts : codec.Accepts) (hformed : ∀ m ∈ ms, WellFormed m)
    (h : Composable codec ms) : ∃ host, compose codec ms = .ok host := by
  obtain ⟨fbytes, hfbytes⟩ := haccepts.fingerprint (fingerprintView ms)
  obtain ⟨cbytes, hcbytes⟩ :=
    haccepts.composition (compositionView (aggregate (declarations ms)))
  have hfound : ∀ (c : HostCompositionManifest), c.schemas = aggregate (declarations ms) →
      ∀ m ∈ ms, ∀ r ∈ referencesOf m, Found c r := by
    intro c hc m hm r hr
    exact (matching_single_iff hc).mpr (h.resolves m hm r hr)
  have hsealed : sealSchemas codec (aggregate (declarations ms)) =
      .ok ⟨aggregate (declarations ms), codec.computeHash cbytes⟩ := by
    unfold sealSchemas
    rw [hcbytes, canonicalDigest_ok]
    rfl
  generalize hc : (⟨aggregate (declarations ms), codec.computeHash cbytes⟩ :
    HostCompositionManifest) = c at hsealed
  have hfound := hfound c (hc ▸ rfl)
  obtain ⟨us, hus⟩ := exists_mapM_ok_iff.mpr
    fun m hm => moduleInterface_ok_iff.mpr (hfound m hm)
  obtain ⟨ibytes, hibytes⟩ := haccepts.interface (interfaceView us c)
  obtain ⟨lowered, hlowered, has⟩ := lowerModules_ok h.mountable hformed
  have hfingerprint : computeFingerprint codec ms = .ok (codec.computeHash fbytes) := by
    unfold computeFingerprint
    rw [hfbytes, canonicalDigest_ok]
  have hsubscriptions : validateSubscriptionPayloadSchemas ms c = .ok () := by
    apply validateSubscriptionPayloadSchemas_ok_iff.mpr
    intro m hm s hs
    exact hfound m hm _
      (List.mem_append_left _ (List.mem_append_right _ (List.mem_map_of_mem hs)))
  have hbindings : validateEventPayloadBindings ms c = .ok () := by
    apply validateEventPayloadBindings_ok_iff.mpr
    intro m hm b hb
    exact hfound m hm _ (List.mem_append_right _ (List.mem_map_of_mem hb))
  have hinterface : computeInterfaceFingerprint codec ms c = .ok (codec.computeHash ibytes) := by
    apply bindOk_iff.mpr
    refine ⟨us, hus, ?_⟩
    rw [hibytes, canonicalDigest_ok]
  have hmodules : ¬(mounted ms).modules.isEmpty = true :=
    fun hempty => h.nonempty (List.isEmpty_iff.mp hempty)
  refine exists_bindOk (mountAll_ok_iff.mpr ⟨h.mountable, rfl⟩) ?_
  unfold HostBuilder.build
  rw [if_neg hmodules]
  refine exists_bindOk hfingerprint ?_
  refine exists_bindOk hsealed ?_
  refine exists_bindOk hsubscriptions ?_
  refine exists_bindOk hbindings ?_
  refine exists_bindOk hinterface ?_
  refine exists_bindOk hlowered ?_
  refine exists_bindOk (mapError_ok_iff.mpr has.core.build) ?_
  exact ⟨_, rfl⟩

/-! ### Mounting in another order -/

/-- Everything that identifies a host but the digest of its composition schemas. -/
structure AgreeButComposition (host host' : Host ι) : Prop where
  fingerprint : host.fingerprint = host'.fingerprint
  interfaceFingerprint : host.interfaceFingerprint = host'.interfaceFingerprint
  operations : host.operations = host'.operations
  subscriptions : host.subscriptions = host'.subscriptions
  bindings : host.eventPayloadBindings = host'.eventPayloadBindings
  startup : host.startup = host'.startup
  shutdown : host.shutdown = host'.shutdown

/-- The two hosts are one to whoever looks at their identity. -/
structure SameIdentity (host host' : Host ι) : Prop extends AgreeButComposition host host' where
  digest : host.compositionSchemas.digest = host'.compositionSchemas.digest

theorem declarations_perm (hperm : ms.Perm ms') : (declarations ms).Perm (declarations ms') :=
  hperm.flatMap_right _

/-- The hooks of a phase have distinct places in the schedule. -/
theorem nodup_hooks (hms : Mountable codec ms) (hformed : ∀ m ∈ ms, WellFormed m)
    (phase : HookPhase) : ((ms.flatMap (hooksIn phase)).map HostHook.orderKey).Nodup := by
  have hkey : ∀ {k k' : HostHook ι}, k.orderKey = k'.orderKey →
      k.descriptor.order = k'.descriptor.order ∧ k.module = k'.module := by
    intro k k' h
    have horder := Prod.mk.inj (toLex_inj.mp h)
    exact ⟨horder.1, (Prod.mk.inj (toLex_inj.mp horder.2)).1⟩
  have howner : ∀ {m : HostModule ι} {k : HostHook ι}, k ∈ hooksIn phase m →
      k.module = m.manifest.id ∧ k.descriptor.phase = phase := by
    intro m k hk
    obtain ⟨h, hh, rfl⟩ := List.mem_map.mp hk
    exact ⟨rfl, of_decide_eq_true (List.mem_filter.mp hh).2⟩
  rw [List.map_flatMap, List.nodup_flatMap]
  constructor
  · intro m hm
    have hslots := List.pairwise_map.mp (hformed m hm).hooks
    unfold hooksIn
    rw [List.map_map]
    apply List.pairwise_map.mpr
    rw [List.pairwise_filter]
    apply hslots.imp
    intro a b hne ha hb heq
    apply hne
    have hphase : a.1.phase = b.1.phase :=
      (of_decide_eq_true ha).trans (of_decide_eq_true hb).symm
    have horder : a.1.order = b.1.order := (hkey heq).1
    unfold HookDescriptor.slot
    rw [hphase, horder]
  · apply (List.pairwise_map.mp hms.ids).imp
    intro m m' hne k hk hk'
    obtain ⟨h, hh, rfl⟩ := List.mem_map.mp hk
    obtain ⟨h', hh', heq⟩ := List.mem_map.mp hk'
    apply hne
    rw [← (howner hh).1, ← (howner hh').1]
    exact (hkey heq).2.symm

/-- In another order the modules make a host that differs at most in the digest of its
composition schemas. -/
theorem composedAs_perm (hformed : ∀ m ∈ ms, WellFormed m) (hms : Mountable codec ms)
    (hperm : ms.Perm ms') (h : ComposedAs codec ms host) (h' : ComposedAs codec ms' host') :
    AgreeButComposition host host' := by
  have hsame : SameIdentities host.compositionSchemas host'.compositionSchemas :=
    sameIdentities_of_perm hms.schemas (declarations_perm hperm) h.schemas h'.schemas
  have hhooks := nodup_hooks hms hformed
  constructor
  · have hview : fingerprintView ms = fingerprintView ms' := by
      unfold fingerprintView
      rw [sortOn_eq_of_perm _ (hperm.map _)]
      rw [List.map_map]
      exact hms.ids
    have hcompute := h.fingerprint
    unfold computeFingerprint at hcompute
    rw [hview] at hcompute
    exact Except.ok.inj (hcompute.symm.trans h'.fingerprint)
  · obtain ⟨us, hus, hdigest⟩ := h.interface
    obtain ⟨us', hus', hdigest'⟩ := h'.interface
    obtain ⟨vs, hvs, hview⟩ := interfaceView_perm hms hperm hsame hus
    cases Except.ok.inj (hus'.symm.trans hvs)
    rw [hview] at hdigest'
    exact Except.ok.inj (hdigest.symm.trans hdigest')
  · rw [h.operations, h'.operations]
    exact sortOn_eq_of_perm hms.operations (hperm.flatMap_right _)
  · rw [h.subscriptions, h'.subscriptions]
    exact sortOn_eq_of_perm (nodup_pair hms.subscriptions) (hperm.flatMap_right _)
  · rw [h.bindings, h'.bindings]
    exact sortOn_eq_of_perm (nodup_pair hms.bindings) (hperm.flatMap_right _)
  · rw [h.startup, h'.startup]
    exact sortOn_eq_of_perm (hhooks .startup) (hperm.flatMap_right _)
  · rw [h.shutdown, h'.shutdown]
    exact sortOn_eq_of_perm (hhooks .shutdown) (hperm.flatMap_right _)

theorem Composable.perm (h : Composable codec ms) (hperm : ms.Perm ms') :
    Composable codec ms' := by
  refine ⟨?_, h.mountable.perm hperm, ?_⟩
  · rintro rfl
    exact h.nonempty hperm.eq_nil
  · intro m hm r hr
    have hdeclared := declarations_perm hperm
    obtain ⟨e, he, hnamed, hall⟩ := h.resolves m (hperm.mem_iff.mpr hm) r hr
    refine ⟨e, hdeclared.mem_iff.mp he, hnamed, ?_⟩
    intro f hf hfnamed
    exact hall f (hdeclared.mem_iff.mpr hf) hfnamed

/-- Modules that compose do so in any order, into hosts that differ at most in the digest of
their composition schemas. -/
theorem compose_perm (haccepts : codec.Accepts) (hformed : ∀ m ∈ ms, WellFormed m)
    (hperm : ms.Perm ms') (h : compose codec ms = .ok host) :
    ∃ host', compose codec ms' = .ok host' ∧ AgreeButComposition host host' := by
  have hformed' : ∀ m ∈ ms', WellFormed m := fun m hm => hformed m (hperm.mem_iff.mpr hm)
  obtain ⟨hms, has⟩ := compose_ok hformed h
  obtain ⟨host', h'⟩ := compose_of_composable haccepts hformed' (hms.perm hperm)
  obtain ⟨-, has'⟩ := compose_ok hformed' h'
  exact ⟨host', h', composedAs_perm hformed hms.mountable hperm has has'⟩

/-! ### Shared schemas -/

/-- Two of the modules declare one schema identity. -/
def SharesSchema (ms : List (HostModule ι)) : Prop :=
  ∃ a ∈ ms, ∃ b ∈ ms, a.manifest.id ≠ b.manifest.id ∧ ∃ s ∈ a.manifest.schemas,
    ∃ t ∈ b.manifest.schemas, s.identityKey = t.identityKey

/-- Without a shared schema every declaration is the first of its identity. -/
theorem nodup_declarations (hms : Mountable codec ms) (hformed : ∀ m ∈ ms, WellFormed m)
    (hnone : ¬SharesSchema ms) : ((declarations ms).map CompositionSchema.key).Nodup := by
  unfold declarations
  rw [List.map_flatMap, List.nodup_flatMap]
  constructor
  · intro m hm
    rw [List.map_map]
    exact (hformed m hm).schemas
  · apply (List.pairwise_map.mp hms.ids).imp_of_mem
    intro a b ha hb hne k hk hk'
    simp only [List.map_map, List.mem_map] at hk hk'
    obtain ⟨s, hs, rfl⟩ := hk
    obtain ⟨t, ht, heq⟩ := hk'
    exact hnone ⟨a, ha, b, hb, hne, s, hs, t, ht, heq.symm⟩

theorem aggregate_perm {declarations declarations' : List CompositionSchema}
    (hnodup : (declarations.map CompositionSchema.key).Nodup)
    (hperm : declarations.Perm declarations') : aggregate declarations = aggregate declarations' := by
  have hnodup' := (hperm.map CompositionSchema.key).nodup_iff.mp hnodup
  unfold aggregate
  rw [firstsOn_of_nodup hnodup, firstsOn_of_nodup hnodup']
  exact sortOn_eq_of_perm hnodup hperm

/-- The module mounted first owns the schemas it declares. -/
theorem first_owns {m : HostModule ι} {s : SchemaDescriptor} (hm : WellFormed m)
    (hs : s ∈ m.manifest.schemas) : ⟨s, m.manifest.id⟩ ∈ aggregate (declarations (m :: ms)) := by
  have hown : ((m.manifest.schemas.map fun t =>
      (⟨t, m.manifest.id⟩ : CompositionSchema)).map CompositionSchema.key).Nodup := by
    rw [List.map_map]
    exact hm.schemas
  apply mem_sortOn.mpr
  unfold declarations
  rw [List.flatMap_cons]
  apply mem_firstsOn_append
  rw [firstsOn_of_nodup hown]
  exact List.mem_map_of_mem hs

theorem key_eq_of_view_eq {e f : CompositionSchema} (h : e.view = f.view) : e.key = f.key := by
  obtain ⟨hid, hversion, hrole, -, -⟩ := CompositionSchemaView.mk.inj h
  unfold CompositionSchema.key SchemaDescriptor.identityKey
  rw [hid, hversion, SchemaRole.asStr_injective hrole]

/-- A shared schema is owned by either module, depending on which is mounted first. -/
theorem views_differ {a b : HostModule ι} {ms ms' : List (HostModule ι)}
    {s t : SchemaDescriptor} (ha : WellFormed a) (hb : WellFormed b)
    (hne : a.manifest.id ≠ b.manifest.id) (hs : s ∈ a.manifest.schemas)
    (ht : t ∈ b.manifest.schemas) (hkey : s.identityKey = t.identityKey) :
    compositionView (aggregate (declarations (a :: ms))) ≠
      compositionView (aggregate (declarations (b :: ms'))) := by
  intro hviews
  have hviews := congrArg CompositionView.schemas hviews
  have hfirst := List.mem_map_of_mem (f := CompositionSchema.view) (@first_owns _ ms a s ha hs)
  have hother := @first_owns _ ms' b t hb ht
  unfold compositionView at hviews
  dsimp only at hviews
  rw [hviews] at hfirst
  obtain ⟨g, hg, hview⟩ := List.mem_map.mp hfirst
  have hgkey : g.key = t.identityKey := (key_eq_of_view_eq hview).trans hkey
  have hsame : g = ⟨t, b.manifest.id⟩ :=
    List.inj_on_of_nodup_map sortedOn_aggregate.nodup_map hg hother hgkey
  have howner := congrArg CompositionSchemaView.ownerModule hview
  rw [hsame] at howner
  exact hne howner.symm

/-! ### Order of mounting -/

/-- Two attempts to compose come to the same. -/
def SameOutcome : Except HostError (Host ι) → Except HostError (Host ι) → Prop
  | .ok host, .ok host' => SameIdentity host host'
  | .error _, .error _ => True
  | _, _ => False

/-- Whatever the order of mounting, composing comes to the same. -/
def MountOrderFree (codec : HostCodec) (ms : List (HostModule ι)) : Prop :=
  ∀ p q, p.Perm ms → q.Perm ms → SameOutcome (compose codec p) (compose codec q)

/-- Encoder and hash tell the schema compositions of the modules in different orders apart. -/
def HostCodec.SeparatesCompositions (codec : HostCodec) (ms : List (HostModule ι)) : Prop :=
  ∀ p q : List (HostModule ι), p.Perm ms → q.Perm ms → ∀ d,
    canonicalDigest codec.computeHash (codec.compositionBytes
      (compositionView (aggregate (declarations p)))) = .ok d →
    canonicalDigest codec.computeHash (codec.compositionBytes
      (compositionView (aggregate (declarations q)))) = .ok d →
    compositionView (aggregate (declarations p)) = compositionView (aggregate (declarations q))

theorem perm_cons_of_mem {α : Type} {a : α} {l : List α} (h : a ∈ l) :
    ∃ rest, (a :: rest).Perm l := by
  obtain ⟨before, after, rfl⟩ := List.append_of_mem h
  exact ⟨before ++ after, List.perm_middle.symm⟩

/-- Composing the modules does not depend on the order of mounting exactly when no schema
identity is declared by two of them, or they do not compose at all. -/
theorem mount_order_free_iff (codec : HostCodec) (haccepts : codec.Accepts)
    (ms : List (HostModule ι)) (hbuilt : ∀ m ∈ ms, Built codec.toCodec m)
    (hseparates : codec.SeparatesCompositions ms) :
    MountOrderFree codec ms ↔ ¬SharesSchema ms ∨ ¬Composable codec ms := by
  have hformed : ∀ p : List (HostModule ι), p.Perm ms → ∀ m ∈ p, WellFormed m :=
    fun p hp m hm => (hbuilt m (hp.mem_iff.mp hm)).wellFormed
  constructor
  · intro hfree
    by_contra hnot
    rw [not_or, not_not, not_not] at hnot
    obtain ⟨⟨a, ha, b, hb, hne, s, hs, t, ht, hkey⟩, hms⟩ := hnot
    obtain ⟨rest, hp⟩ := perm_cons_of_mem ha
    obtain ⟨rest', hq⟩ := perm_cons_of_mem hb
    obtain ⟨host, hhost⟩ := compose_of_composable haccepts (hformed _ hp) (hms.perm hp.symm)
    obtain ⟨host', hhost'⟩ := compose_of_composable haccepts (hformed _ hq) (hms.perm hq.symm)
    have hsame := hfree _ _ hp hq
    rw [hhost, hhost'] at hsame
    have hdigest := (compose_ok (hformed _ hp) hhost).2.digest
    have hdigest' := (compose_ok (hformed _ hq) hhost').2.digest
    rw [← hsame.digest] at hdigest'
    exact views_differ (hbuilt a ha).wellFormed (hbuilt b hb).wellFormed hne hs ht hkey
      (hseparates _ _ hp hq _ hdigest hdigest')
  · intro hcondition p q hp hq
    have hpq := hp.trans hq.symm
    cases hcompose : compose codec p with
    | error e =>
        cases hcompose' : compose codec q with
        | error e' => trivial
        | ok host' =>
            obtain ⟨host, hhost, -⟩ :=
              compose_perm haccepts (hformed q hq) hpq.symm hcompose'
            rw [hcompose] at hhost
            cases hhost
    | ok host =>
        obtain ⟨host', hhost', hagree⟩ := compose_perm haccepts (hformed p hp) hpq hcompose
        obtain ⟨hcomposable, has⟩ := compose_ok (hformed p hp) hcompose
        obtain ⟨-, has'⟩ := compose_ok (hformed q hq) hhost'
        have hnone : ¬SharesSchema p := by
          rintro ⟨a, ha, b, hb, hshared⟩
          rcases hcondition with hnone | hnot
          · exact hnone ⟨a, hp.mem_iff.mp ha, b, hp.mem_iff.mp hb, hshared⟩
          · exact hnot (hcomposable.perm hp)
        have hschemas := aggregate_perm
          (nodup_declarations hcomposable.mountable (hformed p hp) hnone)
          (declarations_perm hpq)
        rw [hhost']
        have hdigest := has.digest
        rw [hschemas] at hdigest
        exact ⟨hagree, Except.ok.inj (hdigest.symm.trans has'.digest)⟩

end Composing

/-! ### Two modules with schemas of their own, and two that share one -/

/-- A hash that reads its bytes as a number, and an encoder that writes owners and ids. -/
def ownerCodec : HostCodec where
  computeHash bytes := BitVec.ofNat 256 (bytes.foldl (fun n b => 256 * n + b.toNat) 1)
  schemaBytes v := .ok (Batpak.Syncbat.utf8 v.id)
  manifestBytes v := .ok (Batpak.Syncbat.utf8 v.id)
  debug text := text
  compositionBytes v := .ok (v.schemas.flatMap fun s => Batpak.Syncbat.utf8 s.ownerModule)
  interfaceBytes _ := .ok []
  fingerprintBytes v := .ok (v.modules.flatMap fun e => Batpak.Syncbat.utf8 e.moduleId)

theorem ownerCodec_accepts : ownerCodec.Accepts where
  composition _ := ⟨_, rfl⟩
  interface _ := ⟨_, rfl⟩
  fingerprint _ := ⟨_, rfl⟩

/-- A module that declares the payload schema of one event. -/
def declaring (module schema : String) : Except HostError (HostModule Unit) := do
  let id ← SchemaId.new schema
  let descriptor ← SchemaDescriptor.new ownerCodec.computeHash ownerCodec.schemaBytes
    ownerCodec.debug id 1 .eventPayload [⟨"payload", [1]⟩]
  HostModuleBuilder.run ownerCodec.toCodec module 1 [.schema descriptor]

theorem declaring_built {module schema : String} {m : HostModule Unit}
    (h : m ∈ (declaring module schema).toOption) : Built ownerCodec.toCodec m := by
  cases hrun : declaring module schema with
  | error e =>
      rw [hrun] at h
      cases h
  | ok m' =>
      rw [hrun] at h
      cases h
      obtain ⟨id, -, hrun⟩ := bindOk_iff.mp hrun
      obtain ⟨descriptor, -, hrun⟩ := bindOk_iff.mp hrun
      exact ⟨module, 1, [.schema descriptor], hrun⟩

/-- The schema is declared identically by both, and owned by the one mounted first. -/
theorem shared_schema_shows_order :
    ∃ a ∈ (declaring "mod.a" "event.shared").toOption,
      ∃ b ∈ (declaring "mod.b" "event.shared").toOption, ¬MountOrderFree ownerCodec [a, b] := by
  have hmodules : ∃ a ∈ (declaring "mod.a" "event.shared").toOption,
      ∃ b ∈ (declaring "mod.b" "event.shared").toOption,
      ∃ host ∈ (compose ownerCodec [a, b]).toOption, ∃ host' ∈ (compose ownerCodec [b, a]).toOption,
        host.compositionSchemas.digest ≠ host'.compositionSchemas.digest := by
    decide +kernel
  obtain ⟨a, ha, b, hb, host, hhost, host', hhost', hdigest⟩ := hmodules
  refine ⟨a, ha, b, hb, ?_⟩
  intro hfree
  have hsame := hfree [a, b] [b, a] (List.Perm.refl _) (List.Perm.swap a b [])
  cases hcompose : compose ownerCodec [a, b] with
  | error e =>
      rw [hcompose] at hhost
      cases hhost
  | ok first =>
      cases hcompose' : compose ownerCodec [b, a] with
      | error e =>
          rw [hcompose'] at hhost'
          cases hhost'
      | ok second =>
          rw [hcompose] at hhost hsame
          rw [hcompose'] at hhost' hsame
          cases hhost
          cases hhost'
          exact hdigest hsame.digest

set_option synthInstance.maxSize 512 in
theorem own_schemas_mount_in_any_order :
    ∃ a ∈ (declaring "mod.a" "event.a").toOption, ∃ b ∈ (declaring "mod.b" "event.b").toOption,
      MountOrderFree ownerCodec [a, b] := by
  have hmodules : ∃ a ∈ (declaring "mod.a" "event.a").toOption,
      ∃ b ∈ (declaring "mod.b" "event.b").toOption,
        ((declarations [a, b]).map CompositionSchema.key).Nodup ∧
          ∀ s ∈ a.manifest.schemas, ∀ t ∈ b.manifest.schemas, s.identityKey ≠ t.identityKey := by
    decide +kernel
  obtain ⟨a, ha, b, hb, hnodup, hapart⟩ := hmodules
  have hnone : ¬SharesSchema [a, b] := by
    rintro ⟨x, hx, y, hy, hne, s, hs, t, ht, hkey⟩
    simp only [List.mem_cons, List.not_mem_nil, or_false] at hx hy
    rcases hx with rfl | rfl <;> rcases hy with rfl | rfl
    · exact hne rfl
    · exact hapart s hs t ht hkey
    · exact hapart t ht s hs hkey.symm
    · exact hne rfl
  refine ⟨a, ha, b, hb, ?_⟩
  apply (mount_order_free_iff ownerCodec ownerCodec_accepts [a, b] ?_ ?_).mpr (Or.inl hnone)
  · intro m hm
    rcases List.mem_cons.mp hm with rfl | hm
    · exact declaring_built ha
    · rw [List.mem_singleton.mp hm]
      exact declaring_built hb
  · intro p q hp hq d _ _
    have hnodup' := ((declarations_perm hp).map CompositionSchema.key).nodup_iff.mpr hnodup
    rw [aggregate_perm hnodup' (declarations_perm (hp.trans hq.symm))]

end Batpak.Hostbat
