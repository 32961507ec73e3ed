/-
Module: Batpak.Proofs.ModuleDigest
Purpose: What the digest of a host module binds: every declared part except the effect rows of its
  operations.
Trusted boundary: none
Main exports: view_eq_iff, AgreeButEffectRows
-/
import Batpak.Hostbat.Module

namespace Batpak.Hostbat

open Batpak.Util
open Batpak.Store (EventKind)
open Batpak.Syncbat (OperationDescriptor OperationEffectRow EffectClass)

/-! ### What was registered -/

/-- The registered parts of each kind, in the order in which they came. -/
structure Declared (ι : Type) where
  operations : List (OperationDescriptor × ι) := []
  receiptNamespaces : List String := []
  guards : List (GuardDescriptor × ι) := []
  hooks : List (HookDescriptor × ι) := []
  jobs : List (JobDescriptor × ι) := []
  schemas : List SchemaDescriptor := []
  subscriptions : List SubscriptionDescriptor := []
  eventPayloadBindings : List EventPayloadBinding := []

section Registration

variable {ι : Type}

namespace Part

def operation? : Part ι → Option (OperationDescriptor × ι)
  | .operation descriptor handler => some (descriptor, handler)
  | _ => none

def receiptNamespace? : Part ι → Option String
  | .receiptNamespace name => some name
  | _ => none

def guard? : Part ι → Option (GuardDescriptor × ι)
  | .guard descriptor impl => some (descriptor, impl)
  | _ => none

def hook? : Part ι → Option (HookDescriptor × ι)
  | .hook phase name order impl => some (⟨phase, name, order⟩, impl)
  | _ => none

def job? : Part ι → Option (JobDescriptor × ι)
  | .job kind body => some (⟨kind⟩, body)
  | _ => none

def schema? : Part ι → Option SchemaDescriptor
  | .schema descriptor => some descriptor
  | _ => none

def subscription? : Part ι → Option SubscriptionDescriptor
  | .subscription descriptor => some descriptor
  | _ => none

def eventPayload? : Part ι → Option EventPayloadBinding
  | .eventPayload kind payloadSchemaRef => some ⟨kind, payloadSchemaRef⟩
  | _ => none

end Part

def declared (parts : List (Part ι)) : Declared ι where
  operations := parts.filterMap Part.operation?
  receiptNamespaces := parts.filterMap Part.receiptNamespace?
  guards := parts.filterMap Part.guard?
  hooks := parts.filterMap Part.hook?
  jobs := parts.filterMap Part.job?
  schemas := parts.filterMap Part.schema?
  subscriptions := parts.filterMap Part.subscription?
  eventPayloadBindings := parts.filterMap Part.eventPayload?

namespace Declared

def add (D : Declared ι) : Part ι → Declared ι
  | .operation descriptor handler =>
      { D with operations := D.operations ++ [(descriptor, handler)] }
  | .guard descriptor guard => { D with guards := D.guards ++ [(descriptor, guard)] }
  | .receiptNamespace name => { D with receiptNamespaces := D.receiptNamespaces ++ [name] }
  | .schema descriptor => { D with schemas := D.schemas ++ [descriptor] }
  | .subscription descriptor => { D with subscriptions := D.subscriptions ++ [descriptor] }
  | .eventPayload kind payloadSchemaRef =>
      { D with eventPayloadBindings := D.eventPayloadBindings ++ [⟨kind, payloadSchemaRef⟩] }
  | .hook phase name order hook =>
      { D with hooks := D.hooks ++ [(⟨phase, name, order⟩, hook)] }
  | .job kind body => { D with jobs := D.jobs ++ [(⟨kind⟩, body)] }

/-- What the builder checks of the parts as they come. -/
structure Accepted (D : Declared ι) : Prop where
  operations : (D.operations.map fun o => o.1.name).Nodup
  valid : ∀ o ∈ D.operations, o.1.validate = .ok ()
  receiptNamespaces : D.receiptNamespaces.Nodup
  guards : D.guards.length ≤ 1
  jobs : (D.jobs.map fun j => j.1.kind).Nodup
  schemas : (D.schemas.map SchemaDescriptor.identityKey).Nodup
  subscriptions : (D.subscriptions.map SubscriptionDescriptor.id).Nodup
  bindings : (D.eventPayloadBindings.map EventPayloadBinding.kindRaw).Nodup
  references : ∀ b ∈ D.eventPayloadBindings, b.payloadSchemaRef ≠ ""

/-- The builder that holds these parts. -/
def builder (id : String) (version : Nat) (D : Declared ι) : HostModuleBuilder ι where
  id := id
  version := version
  operations := sortOn (fun o => o.1.name) D.operations
  receiptNamespaces := D.receiptNamespaces
  guard := D.guards.head?
  hooks := D.hooks
  jobs := sortOn (fun j => j.1.kind) D.jobs
  schemas := sortOn SchemaDescriptor.identityKey D.schemas
  subscriptions := sortOn SubscriptionDescriptor.id D.subscriptions
  eventPayloadBindings := sortOn EventPayloadBinding.kindRaw D.eventPayloadBindings

/-- The same parts of each kind, in another order. -/
structure Perm (D D' : Declared ι) : Prop where
  operations : D.operations.Perm D'.operations
  receiptNamespaces : D.receiptNamespaces.Perm D'.receiptNamespaces
  guards : D.guards.Perm D'.guards
  hooks : D.hooks.Perm D'.hooks
  jobs : D.jobs.Perm D'.jobs
  schemas : D.schemas.Perm D'.schemas
  subscriptions : D.subscriptions.Perm D'.subscriptions
  bindings : D.eventPayloadBindings.Perm D'.eventPayloadBindings

end Declared

theorem declared_concat (parts : List (Part ι)) (p : Part ι) :
    declared (parts ++ [p]) = (declared parts).add p := by
  cases p <;>
    simp [declared, Declared.add, List.filterMap_append, Part.operation?, Part.receiptNamespace?,
      Part.guard?, Part.hook?, Part.job?, Part.schema?, Part.subscription?, Part.eventPayload?]

theorem declared_perm {parts parts' : List (Part ι)} (h : parts.Perm parts') :
    (declared parts).Perm (declared parts') where
  operations := h.filterMap _
  receiptNamespaces := h.filterMap _
  guards := h.filterMap _
  hooks := h.filterMap _
  jobs := h.filterMap _
  schemas := h.filterMap _
  subscriptions := h.filterMap _
  bindings := h.filterMap _

theorem nodup_concat {α : Type} {l : List α} {a : α} :
    (l ++ [a]).Nodup ↔ l.Nodup ∧ a ∉ l := by
  rw [List.nodup_append_comm, List.singleton_append, List.nodup_cons, and_comm]

/-- A part that was accepted with others was preceded by accepted parts. -/
theorem Declared.Accepted.of_add {D : Declared ι} {p : Part ι} (h : (D.add p).Accepted) :
    D.Accepted := by
  have hpre : ∀ {α β : Type} {f : α → β} {l : List α} {a : α},
      ((l ++ [a]).map f).Nodup → (l.map f).Nodup := by
    intro α β f l a hall
    rw [List.map_append] at hall
    exact (List.nodup_append.mp hall).1
  cases p with
  | operation descriptor handler =>
      exact { h with
        operations := hpre h.operations
        valid := fun o ho => h.valid o (List.mem_append_left _ ho) }
  | guard descriptor guard =>
      refine { h with guards := ?_ }
      have hguards := h.guards
      rw [Declared.add, List.length_append] at hguards
      exact Nat.le_trans (Nat.le_add_right _ _) hguards
  | receiptNamespace name =>
      exact { h with receiptNamespaces := (nodup_concat.mp h.receiptNamespaces).1 }
  | schema descriptor => exact { h with schemas := hpre h.schemas }
  | subscription descriptor => exact { h with subscriptions := hpre h.subscriptions }
  | eventPayload kind payloadSchemaRef =>
      exact { h with
        bindings := hpre h.bindings
        references := fun b hb => h.references b (List.mem_append_left _ hb) }
  | hook phase name order hook => exact { h with }
  | job kind body => exact { h with jobs := hpre h.jobs }

/-! ### Registering -/

section Register

variable {codec : Codec} {id : String} {version : Nat} {D : Declared ι} {b : HostModuleBuilder ι}

open HostModuleBuilder

/-- A part is taken by a builder of accepted parts exactly when it is accepted with them. -/
theorem register_ok_iff (hD : D.Accepted) (p : Part ι) :
    register codec (D.builder id version) p = .ok b ↔
      (D.add p).Accepted ∧ b = (D.add p).builder id version := by
  cases p with
  | operation descriptor handler =>
      constructor
      · intro h
        obtain ⟨⟨⟩, hvalid, h⟩ := bindOk_iff.mp h
        obtain ⟨hnodup, rfl⟩ := (insertOrRefuse_ok_iff hD.operations).mp h
        refine ⟨{ hD with operations := hnodup, valid := ?_ }, rfl⟩
        intro o ho
        rcases List.mem_append.mp ho with ho | ho
        · exact hD.valid o ho
        · rw [List.mem_singleton.mp ho]
          exact mapError_ok_iff.mp hvalid
      · rintro ⟨h, rfl⟩
        have hvalid := h.valid (descriptor, handler) (List.mem_append_right _ List.mem_cons_self)
        apply bindOk_iff.mpr
        exact ⟨(), mapError_ok_iff.mpr hvalid, (insertOrRefuse_ok_iff hD.operations).mpr
          ⟨h.operations, rfl⟩⟩
  | guard descriptor guard =>
      have hguard : (D.builder id version).guard = D.guards.head? := rfl
      have hregister : register codec (D.builder id version) (.guard descriptor guard) =
          (D.builder id version).mountGuard descriptor guard := rfl
      rw [hregister, mountGuard, hguard]
      cases hheld : D.guards with
      | nil =>
          have hadd : (D.add (.guard descriptor guard)).guards = [(descriptor, guard)] := by
            rw [Declared.add, hheld]
            rfl
          have hbuilder : { D.builder id version with guard := some (descriptor, guard) } =
              (D.add (.guard descriptor guard)).builder id version := by
            unfold Declared.builder
            rw [hadd]
            rfl
          constructor
          · intro h
            cases h
            refine ⟨{ hD with guards := ?_ }, hbuilder⟩
            rw [hadd]
            exact Nat.le_refl 1
          · rintro ⟨-, rfl⟩
            exact congrArg Except.ok hbuilder
      | cons g rest =>
          constructor
          · intro h
            cases h
          · rintro ⟨h, -⟩
            have hguards := h.guards
            rw [Declared.add, hheld] at hguards
            simp at hguards
  | receiptNamespace name =>
      have hregister : register codec (D.builder id version) (.receiptNamespace name) =
          if name ∈ D.receiptNamespaces then
            .error (.moduleCoherence id
              ("receipt namespace " ++ codec.debug name ++ " is declared twice"))
          else .ok ((D.add (.receiptNamespace name)).builder id version) := rfl
      rw [hregister]
      by_cases hname : name ∈ D.receiptNamespaces
      · rw [if_pos hname]
        constructor
        · intro h
          cases h
        · rintro ⟨h, -⟩
          exact absurd hname (nodup_concat.mp h.receiptNamespaces).2
      · rw [if_neg hname]
        constructor
        · intro h
          cases h
          exact ⟨{ hD with
            receiptNamespaces := nodup_concat.mpr ⟨hD.receiptNamespaces, hname⟩ }, rfl⟩
        · rintro ⟨-, rfl⟩
          rfl
  | schema descriptor =>
      constructor
      · intro h
        obtain ⟨hnodup, rfl⟩ := (insertOrRefuse_ok_iff hD.schemas).mp h
        exact ⟨{ hD with schemas := hnodup }, rfl⟩
      · rintro ⟨h, rfl⟩
        exact (insertOrRefuse_ok_iff hD.schemas).mpr ⟨h.schemas, rfl⟩
  | subscription descriptor =>
      constructor
      · intro h
        obtain ⟨hnodup, rfl⟩ := (insertOrRefuse_ok_iff hD.subscriptions).mp h
        exact ⟨{ hD with subscriptions := hnodup }, rfl⟩
      · rintro ⟨h, rfl⟩
        exact (insertOrRefuse_ok_iff hD.subscriptions).mpr ⟨h.subscriptions, rfl⟩
  | eventPayload kind payloadSchemaRef =>
      have hnew : ∀ binding, EventPayloadBinding.new kind payloadSchemaRef = .ok binding ↔
          payloadSchemaRef ≠ "" ∧ binding = ⟨kind, payloadSchemaRef⟩ := by
        intro binding
        unfold EventPayloadBinding.new
        split_ifs with hempty
        · simp [hempty]
        · simp [hempty, eq_comm]
      constructor
      · intro h
        obtain ⟨binding, hbinding, h⟩ := bindOk_iff.mp h
        obtain ⟨hne, rfl⟩ := (hnew binding).mp hbinding
        obtain ⟨hnodup, rfl⟩ := (insertOrRefuse_ok_iff hD.bindings).mp h
        refine ⟨{ hD with bindings := hnodup, references := ?_ }, rfl⟩
        intro b hb
        rcases List.mem_append.mp hb with hb | hb
        · exact hD.references b hb
        · rw [List.mem_singleton.mp hb]
          exact hne
      · rintro ⟨h, rfl⟩
        have hne := h.references ⟨kind, payloadSchemaRef⟩
          (List.mem_append_right _ List.mem_cons_self)
        apply bindOk_iff.mpr
        exact ⟨_, (hnew _).mpr ⟨hne, rfl⟩, (insertOrRefuse_ok_iff hD.bindings).mpr
          ⟨h.bindings, rfl⟩⟩
  | hook phase name order hook =>
      constructor
      · intro h
        cases h
        exact ⟨{ hD with }, rfl⟩
      · rintro ⟨-, rfl⟩
        rfl
  | job kind body =>
      constructor
      · intro h
        obtain ⟨hnodup, rfl⟩ := (insertOrRefuse_ok_iff hD.jobs).mp h
        exact ⟨{ hD with jobs := hnodup }, rfl⟩
      · rintro ⟨h, rfl⟩
        exact (insertOrRefuse_ok_iff hD.jobs).mpr ⟨h.jobs, rfl⟩

/-- The builder takes a list of registrations exactly when its checks pass on what they
declare, and then holds just that. -/
theorem registerAll_ok_iff {parts : List (Part ι)} :
    parts.foldlM (register codec) (new id version) = .ok b ↔
      (declared parts).Accepted ∧ b = (declared parts).builder id version := by
  induction parts using List.reverseRecOn generalizing b with
  | nil =>
      have hempty : (declared ([] : List (Part ι))).Accepted := by
        constructor <;> simp [declared]
      constructor
      · intro h
        cases h
        exact ⟨hempty, rfl⟩
      · rintro ⟨-, rfl⟩
        rfl
  | append_singleton parts p ih =>
      rw [foldlM_concat_ok_iff, declared_concat]
      constructor
      · rintro ⟨b', hparts, hp⟩
        obtain ⟨hD, rfl⟩ := ih.mp hparts
        exact (register_ok_iff hD p).mp hp
      · rintro ⟨h, rfl⟩
        exact ⟨_, ih.mpr ⟨h.of_add, rfl⟩, (register_ok_iff h.of_add p).mpr ⟨h, rfl⟩⟩

end Register

/-! ### Order of registration -/

theorem Declared.Accepted.perm {D D' : Declared ι} (h : D.Accepted) (hperm : D.Perm D') :
    D'.Accepted where
  operations := (hperm.operations.map _).nodup_iff.mp h.operations
  valid := fun o ho => h.valid o (hperm.operations.mem_iff.mpr ho)
  receiptNamespaces := hperm.receiptNamespaces.nodup_iff.mp h.receiptNamespaces
  guards := hperm.guards.length_eq ▸ h.guards
  jobs := (hperm.jobs.map _).nodup_iff.mp h.jobs
  schemas := (hperm.schemas.map _).nodup_iff.mp h.schemas
  subscriptions := (hperm.subscriptions.map _).nodup_iff.mp h.subscriptions
  bindings := (hperm.bindings.map _).nodup_iff.mp h.bindings
  references := fun b hb => h.references b (hperm.bindings.mem_iff.mpr hb)

/-- No two neighbours of an ascending list share a key, so no two elements do. -/
theorem pairwise_of_adjacentTwin {α κ κ' : Type} [DecidableEq κ] [LinearOrder κ'] {key : α → κ}
    {coarse : α → κ'} {l : List α} (hkey : ∀ a b, coarse a = coarse b → key a = key b)
    (hsorted : l.Pairwise fun a b => coarse a ≤ coarse b) (h : adjacentTwin key l = none) :
    SortedOn coarse l := by
  induction l with
  | nil => exact List.Pairwise.nil
  | cons a rest ih =>
      obtain ⟨hle, hrest⟩ := List.pairwise_cons.mp hsorted
      cases rest with
      | nil => exact List.pairwise_singleton _ a
      | cons b rest =>
          unfold adjacentTwin at h
          by_cases hab : key a = key b
          · rw [if_pos hab] at h
            cases h
          · rw [if_neg hab] at h
            have htail := ih hrest h
            have hlt : coarse a < coarse b := by
              apply lt_of_le_of_ne (hle b List.mem_cons_self)
              intro heq
              exact hab (hkey a b heq)
            apply List.pairwise_cons.mpr
            refine ⟨?_, htail⟩
            intro c hc
            rcases List.mem_cons.mp hc with rfl | hc
            · exact hlt
            · exact hlt.trans ((List.pairwise_cons.mp htail).1 c hc)

def HookDescriptor.slot (h : HookDescriptor) : ℕ ×ₗ ℕ :=
  toLex (h.phase.rank, h.order)

theorem slot_le_of_orderKey_le {h h' : HookDescriptor} (hle : h.orderKey ≤ h'.orderKey) :
    h.slot ≤ h'.slot := by
  apply Prod.Lex.toLex_le_toLex.mpr
  rcases Prod.Lex.toLex_le_toLex.mp hle with hphase | ⟨hphase, hrest⟩
  · exact Or.inl hphase
  · refine Or.inr ⟨hphase, ?_⟩
    rcases Prod.Lex.toLex_le_toLex.mp hrest with horder | ⟨horder, -⟩
    · exact le_of_lt horder
    · exact le_of_eq horder

theorem slot_eq {h h' : HookDescriptor} (heq : h.slot = h'.slot) :
    (h.phase, h.order) = (h'.phase, h'.order) := by
  have hpair := Prod.mk.inj (toLex_inj.mp heq)
  rw [HookPhase.rank_injective hpair.1, hpair.2]

/-- Hooks without a collision have one canonical order. -/
theorem hooks_sorted {module : String} {hooks : List (HookDescriptor × ι)}
    (h : HostModuleBuilder.rejectHookOrderCollisions module
      (sortOn (fun k => k.1.orderKey) hooks) = .ok ()) :
    (hooks.map fun k => k.1.slot).Nodup := by
  unfold HostModuleBuilder.rejectHookOrderCollisions at h
  split at h
  · cases h
  · rename_i hnone
    have hsorted : (sortOn (fun k : HookDescriptor × ι => k.1.orderKey) hooks).Pairwise
        fun a b => a.1.slot ≤ b.1.slot := by
      apply (pairwise_sortOn _ hooks).imp
      intro a b hle
      exact slot_le_of_orderKey_le hle
    have hstrict : SortedOn (fun k : HookDescriptor × ι => k.1.slot)
        (sortOn (fun k => k.1.orderKey) hooks) :=
      pairwise_of_adjacentTwin (fun a b heq => slot_eq heq) hsorted hnone
    exact ((perm_sortOn _ hooks).map _).nodup_iff.mp hstrict.nodup_map

theorem nodup_orderKey {hooks : List (HookDescriptor × ι)}
    (h : (hooks.map fun k => k.1.slot).Nodup) : (hooks.map fun k => k.1.orderKey).Nodup := by
  apply List.pairwise_map.mpr
  apply (List.pairwise_map.mp h).imp
  intro a b hne heq
  apply hne
  have hphase := Prod.mk.inj (toLex_inj.mp heq)
  have hrest := Prod.mk.inj (toLex_inj.mp hphase.2)
  unfold HookDescriptor.slot
  rw [hphase.1, hrest.1]

section Build

variable {codec : Codec} {id : String} {version : Nat} {D D' : Declared ι} {m : HostModule ι}

open HostModuleBuilder

/-- Namespaces and hooks are sorted before anything is made of them. -/
theorem build_congr (b : HostModuleBuilder ι) {names : List String}
    {hooks : List (HookDescriptor × ι)}
    (hnames : sortOn (fun name => name) names = sortOn (fun name => name) b.receiptNamespaces)
    (hhooks : sortOn (fun k => k.1.orderKey) hooks = sortOn (fun k => k.1.orderKey) b.hooks) :
    HostModuleBuilder.build codec { b with receiptNamespaces := names, hooks := hooks } =
      b.build codec := by
  have hempty : hooks.isEmpty = b.hooks.isEmpty := by
    have hlength := (perm_sortOn (fun k : HookDescriptor × ι => k.1.orderKey) hooks).length_eq
    rw [hhooks, (perm_sortOn _ b.hooks).length_eq] at hlength
    rw [Bool.eq_iff_iff, List.isEmpty_iff_length_eq_zero, List.isEmpty_iff_length_eq_zero, hlength]
  unfold HostModuleBuilder.build sealedParts isEmpty
  simp only [hnames, hhooks, hempty]

theorem builder_perm (hD : D.Accepted) (hperm : D.Perm D') :
    D'.builder id version =
      { D.builder id version with
        receiptNamespaces := D'.receiptNamespaces
        hooks := D'.hooks } := by
  have hguard : D.guards = D'.guards := by
    have hguards := hD.guards
    cases hone : D.guards with
    | nil =>
        rw [← hone]
        exact hone.trans (List.Perm.nil_eq (hone ▸ hperm.guards))
    | cons g rest =>
        rw [hone, List.length_cons] at hguards
        have hrest : rest = [] := List.eq_nil_of_length_eq_zero (by omega)
        have hsingle := hone ▸ hperm.guards
        rw [hrest] at hsingle ⊢
        exact List.singleton_perm.mp hsingle
  unfold Declared.builder
  rw [sortOn_eq_of_perm hD.operations hperm.operations, sortOn_eq_of_perm hD.jobs hperm.jobs,
    sortOn_eq_of_perm hD.schemas hperm.schemas,
    sortOn_eq_of_perm hD.subscriptions hperm.subscriptions,
    sortOn_eq_of_perm hD.bindings hperm.bindings, hguard]

/-- The steps of a build that went through. -/
theorem build_ok {b : HostModuleBuilder ι} (h : b.build codec = .ok m) :
    rejectHookOrderCollisions b.id (sortOn (fun k => k.1.orderKey) b.hooks) = .ok () ∧
      computeDigest codec b.sealedParts = .ok m.manifest.digest ∧
      m.manifest.toSealedParts = b.sealedParts ∧
      m.handlers = b.operations.map (fun o => (o.1.name, o.2)) ∧
      m.hooks = sortOn (fun k => k.1.orderKey) b.hooks := by
  obtain ⟨⟨⟩, -, h⟩ := bindOk_iff.mp h
  split_ifs at h
  obtain ⟨⟨⟩, hhooks, h⟩ := bindOk_iff.mp h
  obtain ⟨manifest, hseal, h⟩ := bindOk_iff.mp h
  obtain ⟨digest, hdigest, hmanifest⟩ := bindOk_iff.mp hseal
  cases hmanifest
  cases h
  exact ⟨hhooks, hdigest, rfl, rfl, rfl⟩

/-- The same parts registered in another order build the same module. -/
theorem run_perm {parts parts' : List (Part ι)} (hperm : parts.Perm parts')
    (h : run codec id version parts = .ok m) : run codec id version parts' = .ok m := by
  obtain ⟨b, hregister, hbuild⟩ := bindOk_iff.mp h
  obtain ⟨hD, rfl⟩ := registerAll_ok_iff.mp hregister
  have hdeclared := declared_perm hperm
  obtain ⟨hhooks, -⟩ := build_ok hbuild
  have hhooks : sortOn (fun k => k.1.orderKey) (declared parts').hooks =
      sortOn (fun k => k.1.orderKey) (declared parts).hooks :=
    (sortOn_eq_of_perm (nodup_orderKey (hooks_sorted hhooks)) hdeclared.hooks).symm
  have hnames : sortOn (fun name => name) (declared parts').receiptNamespaces =
      sortOn (fun name => name) (declared parts).receiptNamespaces := by
    symm
    apply sortOn_eq_of_perm _ hdeclared.receiptNamespaces
    rw [List.map_id']
    exact hD.receiptNamespaces
  apply bindOk_iff.mpr
  refine ⟨_, registerAll_ok_iff.mpr ⟨hD.perm hdeclared, rfl⟩, ?_⟩
  rw [builder_perm hD hdeclared, build_congr _ hnames hhooks]
  exact hbuild

end Build

end Registration

/-! ### What the view shows -/

/-- What identifies a schema: id, version, role and content hash. -/
def SchemaDescriptor.identity (s : SchemaDescriptor) : SchemaId × Nat × SchemaRole × Digest :=
  (s.id, s.version, s.role, s.encoding)

def withoutEffectRow (d : OperationDescriptor) : OperationDescriptor :=
  { d with effectRow := .empty }

/-- The same declarations, the effect rows of the operations left aside. -/
structure AgreeButEffectRows (p q : SealedParts) : Prop where
  id : p.id = q.id
  version : p.version = q.version
  operations : p.operations.map withoutEffectRow = q.operations.map withoutEffectRow
  receiptNamespaces : p.receiptNamespaces = q.receiptNamespaces
  guard : p.guard = q.guard
  hooks : p.hooks = q.hooks
  jobs : p.jobs = q.jobs
  schemas : p.schemas.map SchemaDescriptor.identity = q.schemas.map SchemaDescriptor.identity
  subscriptions : p.subscriptions = q.subscriptions
  eventPayloadBindings : p.eventPayloadBindings = q.eventPayloadBindings

/-- The same declarations, every field of every operation included. -/
structure AgreeOnDeclared (p q : SealedParts) : Prop extends AgreeButEffectRows p q where
  descriptors : p.operations = q.operations

def EffectRowsDiffer (p q : SealedParts) : Prop :=
  p.operations.map OperationDescriptor.effectRow ≠ q.operations.map OperationDescriptor.effectRow

/-- Nothing but the effect rows of operations tells the two apart. -/
def DifferInEffectRowsAlone (p q : SealedParts) : Prop :=
  AgreeButEffectRows p q ∧ EffectRowsDiffer p q

section Views

variable {p q : SealedParts}

theorem asStr_injective : Function.Injective EffectClass.asStr := by
  intro a b h
  have hcatalog := congrArg EffectClass.fromCatalogStr h
  simpa using hcatalog

theorem operationView_eq_iff {d e : OperationDescriptor} :
    OperationView.ofDescriptor d = OperationView.ofDescriptor e ↔
      withoutEffectRow d = withoutEffectRow e := by
  simp only [OperationView.ofDescriptor, withoutEffectRow, OperationView.mk.injEq,
    OperationDescriptor.mk.injEq, asStr_injective.eq_iff]
  tauto

theorem schemaView_eq_iff {s t : SchemaDescriptor} :
    s.manifestView = t.manifestView ↔ s.identity = t.identity := by
  have hid : s.id.text = t.id.text ↔ s.id = t.id := by
    cases hs : s.id
    cases ht : t.id
    simp
  simp only [SchemaDescriptor.manifestView, SchemaDescriptor.identity, SchemaManifestView.mk.injEq,
    Prod.mk.injEq, SchemaRole.asStr_injective.eq_iff, hid]

theorem bindingView_injective : Function.Injective EventPayloadBinding.manifestView := by
  intro b c h
  obtain ⟨⟨kind⟩, reference⟩ := b
  obtain ⟨⟨kind'⟩, reference'⟩ := c
  have hfields := EventPayloadBindingView.mk.inj h
  have hkind : kind = kind' := hfields.1
  have hreference : reference = reference' := hfields.2
  rw [hkind, hreference]

/-- Two functions with one kernel tell the same lists apart. -/
theorem map_eq_map_iff {α β γ : Type} {f : α → β} {g : α → γ}
    (h : ∀ a b, f a = f b ↔ g a = g b) {l l' : List α} :
    l.map f = l'.map f ↔ l.map g = l'.map g := by
  induction l generalizing l' with
  | nil => cases l' <;> simp
  | cons a rest ih =>
      cases l' with
      | nil => simp
      | cons b rest' => simp only [List.map_cons, List.cons.injEq, h, ih]

/-- The canonical view shows everything but the effect rows. -/
theorem view_eq_iff : p.view = q.view ↔ AgreeButEffectRows p q := by
  have hoperations := @map_eq_map_iff _ _ _ OperationView.ofDescriptor withoutEffectRow
    (fun _ _ => operationView_eq_iff) p.operations q.operations
  have hschemas := @map_eq_map_iff _ _ _ SchemaDescriptor.manifestView SchemaDescriptor.identity
    (fun _ _ => schemaView_eq_iff) p.schemas q.schemas
  have hbindings : p.eventPayloadBindings.map EventPayloadBinding.manifestView =
      q.eventPayloadBindings.map EventPayloadBinding.manifestView ↔
      p.eventPayloadBindings = q.eventPayloadBindings :=
    (List.map_injective_iff.mpr bindingView_injective).eq_iff
  constructor
  · intro h
    obtain ⟨-, hid, hversion, hops, hnames, hguard, hhooks, hjobs, hschema, hsubs, hbinds⟩ :=
      ManifestView.mk.inj h
    exact ⟨hid, hversion, hoperations.mp hops, hnames, hguard, hhooks, hjobs,
      hschemas.mp hschema, hsubs, hbindings.mp hbinds⟩
  · intro h
    unfold SealedParts.view
    rw [h.id, h.version, hoperations.mpr h.operations, h.receiptNamespaces, h.guard, h.hooks,
      h.jobs, hschemas.mpr h.schemas, h.subscriptions, hbindings.mpr h.eventPayloadBindings]

theorem operations_eq_iff {l l' : List OperationDescriptor} :
    l = l' ↔ l.map withoutEffectRow = l'.map withoutEffectRow ∧
      l.map OperationDescriptor.effectRow = l'.map OperationDescriptor.effectRow := by
  induction l generalizing l' with
  | nil => cases l' <;> simp
  | cons d rest ih =>
      cases l' with
      | nil => simp
      | cons e rest' =>
          have hhead : d = e ↔ withoutEffectRow d = withoutEffectRow e ∧
              d.effectRow = e.effectRow := by
            cases d
            cases e
            simp only [withoutEffectRow, OperationDescriptor.mk.injEq]
            tauto
          simp only [List.map_cons, List.cons.injEq, hhead, ih]
          tauto

/-- Agreement on everything else is agreement unless effect rows differ. -/
theorem agreeOnDeclared_iff (h : AgreeButEffectRows p q) :
    AgreeOnDeclared p q ↔ ¬DifferInEffectRowsAlone p q := by
  constructor
  · intro hall hdiffer
    exact hdiffer.2 (congrArg _ hall.descriptors)
  · intro hnot
    refine ⟨h, operations_eq_iff.mpr ⟨h.operations, ?_⟩⟩
    by_contra hrows
    exact hnot ⟨h, hrows⟩

end Views

/-! ### The digest -/

/-- The canonical encoder tells manifests apart. -/
def Codec.EncodesInjectively (codec : Codec) : Prop :=
  ∀ v w bytes, codec.manifestBytes v = .ok bytes → codec.manifestBytes w = .ok bytes → v = w

/-- The hash does not collide on the canonical bytes of the two. -/
def Codec.Separates (codec : Codec) (p q : SealedParts) : Prop :=
  ∀ b c, codec.manifestBytes p.view = .ok b → codec.manifestBytes q.view = .ok c →
    codec.computeHash b = codec.computeHash c → b = c

/-- A module that a builder made. -/
def Built {ι : Type} (codec : Codec) (m : HostModule ι) : Prop :=
  ∃ id version parts, HostModuleBuilder.run codec id version parts = .ok m

section Digest

variable {ι : Type} {codec : Codec} {p q : SealedParts} {d d' : Digest}

theorem computeDigest_ok_iff :
    computeDigest codec p = .ok d ↔
      ∃ bytes, codec.manifestBytes p.view = .ok bytes ∧ codec.computeHash bytes = d := by
  simp only [computeDigest, canonicalDigest, mapOk_iff, mapError_ok_iff]

theorem digest_eq_iff (hencoder : codec.EncodesInjectively) (hhash : codec.Separates p q)
    (hp : computeDigest codec p = .ok d) (hq : computeDigest codec q = .ok d') :
    d = d' ↔ AgreeButEffectRows p q := by
  obtain ⟨b, hb, rfl⟩ := computeDigest_ok_iff.mp hp
  obtain ⟨c, hc, rfl⟩ := computeDigest_ok_iff.mp hq
  rw [← view_eq_iff]
  constructor
  · intro h
    have hbytes := hhash b c hb hc h
    exact hencoder _ _ b hb (hbytes ▸ hc)
  · intro h
    rw [h, hc] at hb
    cases hb
    rfl

/-- The manifest of a built module is sealed over its own parts. -/
theorem Built.computeDigest {m : HostModule ι} (h : Built codec m) :
    computeDigest codec m.manifest.toSealedParts = .ok m.manifest.digest := by
  obtain ⟨id, version, parts, hrun⟩ := h
  obtain ⟨b, -, hbuild⟩ := bindOk_iff.mp hrun
  obtain ⟨-, hdigest, hparts, -⟩ := build_ok hbuild
  rw [hparts]
  exact hdigest

/-- A test that passes exactly for declarations that agree up to effect rows attests the
declarations exactly when the rows are not all that differs. -/
theorem attests_iff {attests : Prop} (h : attests ↔ AgreeButEffectRows p q) :
    (attests → AgreeOnDeclared p q) ↔ ¬DifferInEffectRowsAlone p q := by
  constructor
  · intro hall hdiffer
    exact (agreeOnDeclared_iff hdiffer.1).mp (hall (h.mpr hdiffer.1)) hdiffer
  · intro hnot hattests
    exact (agreeOnDeclared_iff (h.mp hattests)).mpr hnot

theorem verifyHash_iff {a : HostModule ι} {t : HostModuleManifest}
    (hencoder : codec.EncodesInjectively)
    (hhash : codec.Separates t.toSealedParts a.manifest.toSealedParts) (ha : Built codec a)
    (ht : t.digest = a.manifest.digest) :
    t.verifyHash codec = .ok true ↔
      AgreeButEffectRows t.toSealedParts a.manifest.toSealedParts := by
  unfold HostModuleManifest.verifyHash
  rw [bindOk_iff]
  constructor
  · rintro ⟨d, hd, hsame⟩
    have hdigest : d = t.digest := by simpa using hsame
    exact (digest_eq_iff hencoder hhash hd ha.computeDigest).mp (hdigest.trans ht)
  · intro h
    refine ⟨a.manifest.digest, ?_, ?_⟩
    · have hview := view_eq_iff.mpr h
      unfold Hostbat.computeDigest
      rw [hview]
      exact ha.computeDigest
    · rw [ht]
      simp

/-- The digest of a module binds its declarations up to the effect rows of its operations. Of
two built modules, equal digests mean equal declarations exactly when the two do not differ
in effect rows alone; a manifest whose parts were replaced passes the check at mount only with
the declared parts, under the same condition; and the order of registration is immaterial. -/
theorem module_digest_binds_but_effect_rows (codec : Codec)
    (hencoder : codec.EncodesInjectively) :
    (∀ a b : HostModule ι, Built codec a → Built codec b →
      codec.Separates a.manifest.toSealedParts b.manifest.toSealedParts →
      ((a.manifest.digest = b.manifest.digest →
          AgreeOnDeclared a.manifest.toSealedParts b.manifest.toSealedParts) ↔
        ¬DifferInEffectRowsAlone a.manifest.toSealedParts b.manifest.toSealedParts)) ∧
    (∀ (a : HostModule ι) (t : HostModuleManifest), Built codec a →
      t.digest = a.manifest.digest →
      codec.Separates t.toSealedParts a.manifest.toSealedParts →
      ((t.verifyHash codec = .ok true →
          AgreeOnDeclared t.toSealedParts a.manifest.toSealedParts) ↔
        ¬DifferInEffectRowsAlone t.toSealedParts a.manifest.toSealedParts)) ∧
    (∀ id version (parts parts' : List (Part ι)) m,
      HostModuleBuilder.run codec id version parts = .ok m → parts.Perm parts' →
      HostModuleBuilder.run codec id version parts' = .ok m) := by
  refine ⟨?_, ?_, ?_⟩
  · intro a b ha hb hhash
    exact attests_iff (digest_eq_iff hencoder hhash ha.computeDigest hb.computeDigest)
  · intro a t ha ht hhash
    exact attests_iff (verifyHash_iff hencoder hhash ha ht)
  · intro id version parts parts' m h hperm
    exact run_perm hperm h

end Digest

/-! ### Two modules that append different events -/

/-- An encoder of the listed views, each by its place. -/
def listedCodec (views : List ManifestView) : Codec where
  computeHash bytes := BitVec.ofNat 256 bytes.length
  schemaBytes _ := .error "not listed"
  manifestBytes v :=
    if v ∈ views then .ok (List.replicate (views.idxOf v) 0) else .error "not listed"
  debug text := text

theorem listedCodec_injective (views : List ManifestView) :
    (listedCodec views).EncodesInjectively := by
  have hlisted : ∀ v bytes, (listedCodec views).manifestBytes v = .ok bytes →
      v ∈ views ∧ views.idxOf v = bytes.length := by
    intro v bytes h
    unfold listedCodec at h
    dsimp only at h
    split_ifs at h with hv
    cases h
    exact ⟨hv, (List.length_replicate).symm⟩
  intro v w bytes hv hw
  obtain ⟨hmem, hplace⟩ := hlisted v bytes hv
  obtain ⟨-, hplace'⟩ := hlisted w bytes hw
  exact (List.idxOf_inj hmem).mp (hplace.trans hplace'.symm)

def echoPut (kind : EventKind) : OperationDescriptor where
  name := "echo.put"
  title := none
  effect := .persist
  inputSchemaRef := "echo.put.in"
  outputSchemaRef := "echo.put.out"
  receiptKind := "echo.put.receipt"
  effectRow := OperationEffectRow.empty.recordAppendsEvent (Batpak.Syncbat.appendTarget kind)

def echoParts (kind : EventKind) : List (Part Unit) :=
  [.operation (echoPut kind) ()]

def echoView (version : Nat) : ManifestView :=
  ((declared (echoParts ⟨0x1001⟩)).builder "echo" version).sealedParts.view

def echoCodec : Codec :=
  listedCodec [echoView 1, echoView 2]

def echoModule (version : Nat) (kind : EventKind) : Except HostError (HostModule Unit) :=
  HostModuleBuilder.run echoCodec "echo" version (echoParts kind)

theorem echoModule_built {version : Nat} {kind : EventKind} {m : HostModule Unit}
    (h : m ∈ (echoModule version kind).toOption) : Built echoCodec m := by
  refine ⟨"echo", version, echoParts kind, ?_⟩
  unfold echoModule at h
  cases hrun : HostModuleBuilder.run echoCodec "echo" version (echoParts kind) with
  | error e =>
      rw [hrun] at h
      cases h
  | ok m' =>
      rw [hrun] at h
      cases h
      rfl

/-- The two operations have one name, one effect class and one set of references; one appends
events of kind 0x1001, the other of kind 0x1002. Encoder and hash tell apart what they see. -/
theorem digest_misses_effect_row :
    echoCodec.EncodesInjectively ∧
      ∃ a ∈ (echoModule 1 ⟨0x1001⟩).toOption, ∃ b ∈ (echoModule 1 ⟨0x1002⟩).toOption,
        echoCodec.Separates a.manifest.toSealedParts b.manifest.toSealedParts ∧
          a.manifest.digest = b.manifest.digest ∧ b.manifest.verifyHash echoCodec = .ok true ∧
          ¬AgreeOnDeclared a.manifest.toSealedParts b.manifest.toSealedParts := by
  refine ⟨listedCodec_injective _, ?_⟩
  have hmodules : ∃ a ∈ (echoModule 1 ⟨0x1001⟩).toOption,
      ∃ b ∈ (echoModule 1 ⟨0x1002⟩).toOption,
        a.manifest.toSealedParts.view = b.manifest.toSealedParts.view ∧
          a.manifest.digest = b.manifest.digest ∧ b.manifest.verifyHash echoCodec = .ok true ∧
          a.manifest.operations ≠ b.manifest.operations := by
    decide +kernel
  obtain ⟨a, ha, b, hb, hview, hdigest, hverify, hoperations⟩ := hmodules
  refine ⟨a, ha, b, hb, ?_, hdigest, hverify, fun h => hoperations h.descriptors⟩
  intro x y hx hy _
  rw [hview, hy] at hx
  cases hx
  rfl

theorem echo_versions_told_apart :
    ∃ a ∈ (echoModule 1 ⟨0x1001⟩).toOption, ∃ b ∈ (echoModule 2 ⟨0x1001⟩).toOption,
      a.manifest.digest = b.manifest.digest →
        AgreeOnDeclared a.manifest.toSealedParts b.manifest.toSealedParts := by
  have hmodules : ∃ a ∈ (echoModule 1 ⟨0x1001⟩).toOption,
      ∃ b ∈ (echoModule 2 ⟨0x1001⟩).toOption,
        a.manifest.toSealedParts.view = echoView 1 ∧ b.manifest.toSealedParts.view = echoView 2 ∧
          a.manifest.version ≠ b.manifest.version := by
    decide +kernel
  obtain ⟨a, ha, b, hb, hviewa, hviewb, hversion⟩ := hmodules
  refine ⟨a, ha, b, hb, ?_⟩
  have hall := (module_digest_binds_but_effect_rows echoCodec (listedCodec_injective _)).1 a b
    (echoModule_built ha) (echoModule_built hb)
  refine (hall ?_).mpr fun h => hversion h.1.version
  intro x y hx hy hhash
  have hx : x = [] := by
    rw [hviewa] at hx
    have hfirst : echoCodec.manifestBytes (echoView 1) = .ok [] := by decide +kernel
    exact (Except.ok.inj (hfirst.symm.trans hx)).symm
  have hy : y = [0] := by
    rw [hviewb] at hy
    have hsecond : echoCodec.manifestBytes (echoView 2) = .ok [0] := by decide +kernel
    exact (Except.ok.inj (hsecond.symm.trans hy)).symm
  rw [hx, hy] at hhash
  exact absurd hhash (by decide)

end Batpak.Hostbat
