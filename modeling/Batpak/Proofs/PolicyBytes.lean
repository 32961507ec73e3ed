/-
Module: Batpak.Proofs.PolicyBytes
Purpose: Canonical policy bytes mean the policy: two policies have the same bytes exactly when they
  denote the same.
Trusted boundary: none
Main exports: PolicyMeaning, canonical_bytes_mean_the_policy
-/
import Batpak.Bvisor.CanonicalPolicy
import Batpak.Util.Delimited

namespace Batpak.Bvisor

open Util

variable {ds : List NetDest} {total t : Nat} {entries : List EnvEntry}

/-! ### What a policy means -/

/-- The variant that grants nothing is not the one that lists nothing. -/
inductive PolicyMeaning where
  | fds (granted : Option (Set (BitVec 32)))
  | spawn (policy : SpawnPolicy)
  | environment (source : String → Option EnvSource)
  | network (allowed : Option (Set (String × BitVec 16)))

def FdPolicy.granted : FdPolicy → Option (Set (BitVec 32))
  | .none => Option.none
  | .only fds => some {fd | fd ∈ fds}

def EnvPolicy.sourceOf : EnvPolicy → String → Option EnvSource
  | .exact entries, name => (entries.find? (·.name = name)).map (·.source)

def NetPolicy.allowed : NetPolicy → Option (Set (String × BitVec 16))
  | .denyAll => none
  | .allowList destinations => some {p | ∃ d ∈ destinations, (d.host, d.port) = p}

/-- Every length is a `usize`. -/
def NetPolicy.Held : NetPolicy → Prop
  | .denyAll => True
  | .allowList destinations =>
      destinations.length ≤ usizeMax ∧ ∀ d ∈ destinations, d.host.utf8ByteSize ≤ usizeMax

/-- The policies that are keyed: an environment has passed its gate, and a network policy is a
value the program can hold. -/
inductive KeyedPolicy where
  | fd (policy : FdPolicy)
  | spawn (policy : SpawnPolicy)
  | env (policy : EnvPolicy) (valid : policy.validate = .ok ())
  | net (policy : NetPolicy) (held : policy.Held)

namespace KeyedPolicy

def family : KeyedPolicy → Family
  | fd _ => .fd
  | spawn _ => .spawn
  | env _ _ => .env
  | net _ _ => .net

def canonical : KeyedPolicy → CanonicalPolicy
  | fd policy => .ofFd policy
  | spawn policy => .ofSpawn policy
  | env policy _ => .ofEnv policy
  | net policy _ => .ofNet policy

def meaning : KeyedPolicy → PolicyMeaning
  | fd policy => .fds policy.granted
  | spawn policy => .spawn policy
  | env policy _ => .environment policy.sourceOf
  | net policy _ => .network policy.allowed

end KeyedPolicy

/-! ### The bytes that are written -/

theorem Encoder.bytes_foldl {α : Type} {put : Encoder → α → Encoder} {write : α → List UInt8}
    (hput : ∀ enc a, (put enc a).bytes = enc.bytes ++ write a) (enc : Encoder) (items : List α) :
    (items.foldl put enc).bytes = enc.bytes ++ items.flatMap write := by
  induction items generalizing enc with
  | nil => simp
  | cons a rest ih => simp [ih, hput]

def fdBytes (fd : BitVec 32) : List UInt8 :=
  beBytes 4 fd.toNat

def countedText (text : String) : List UInt8 :=
  countedBytes 8 (fun b : UInt8 => [b]) (textBytes text)

def entryBytes (entry : EnvEntry) : List UInt8 :=
  countedText entry.name ++
    ([(Encoder.tagged entry.source).1] ++ countedText (Encoder.tagged entry.source).2)

def destBytes (dest : NetDest) : List UInt8 :=
  countedText dest.host ++ beBytes 2 dest.port.toNat

theorem countedText_eq (text : String) :
    countedText text = beBytes 8 (textBytes text).length ++ textBytes text := by
  simp [countedText, countedBytes]

theorem bytes_lenPrefixedU32List (enc : Encoder) (items : List (BitVec 32)) :
    (enc.lenPrefixedU32List items).bytes = enc.bytes ++ countedBytes 8 fdBytes items := by
  have hput : ∀ (enc : Encoder) (fd : BitVec 32),
      (enc.extend (beBytes 4 fd.toNat)).bytes = enc.bytes ++ fdBytes fd := by
    intro enc fd
    rfl
  rw [Encoder.lenPrefixedU32List, Encoder.bytes_foldl hput]
  simp [countedBytes, Encoder.count, Encoder.extend]

theorem bytes_lenPrefixedEnvList (enc : Encoder) (items : List EnvEntry) :
    (enc.lenPrefixedEnvList items).bytes = enc.bytes ++ countedBytes 8 entryBytes items := by
  have hput : ∀ (enc : Encoder) (e : EnvEntry),
      (enc.envEntry e).bytes = enc.bytes ++ entryBytes e := by
    intro enc e
    simp [Encoder.envEntry, Encoder.count, Encoder.extend, entryBytes, countedText_eq]
  rw [Encoder.lenPrefixedEnvList, Encoder.bytes_foldl hput]
  simp [countedBytes, Encoder.count, Encoder.extend]

theorem bytes_lenPrefixedDestList (enc : Encoder) (items : List NetDest) :
    (enc.lenPrefixedDestList items).bytes = enc.bytes ++ countedBytes 8 destBytes items := by
  have hput : ∀ (enc : Encoder) (d : NetDest),
      (enc.netDest d).bytes = enc.bytes ++ destBytes d := by
    intro enc d
    simp [Encoder.netDest, Encoder.count, Encoder.extend, destBytes, countedText_eq]
  rw [Encoder.lenPrefixedDestList, Encoder.bytes_foldl hput]
  simp [countedBytes, Encoder.count, Encoder.extend]

/-! ### Every field shows where it ends -/

theorem textBytes_injective {s t : String} (h : textBytes s = textBytes t) : s = t := by
  apply String.toByteArray_inj.mp
  exact ByteArray.ext (Array.toList_inj.mp h)

theorem delimited_fdBytes : Delimited (fun _ => True) fdBytes :=
  delimited_word 4

/-- Its length fits the eight bytes of the count. -/
def TextFits (text : String) : Prop :=
  (textBytes text).length < 256 ^ 8

theorem delimited_countedText : Delimited TextFits countedText := by
  have h := (delimited_singleton (β := UInt8)).counted 8
  apply (h.comap textBytes fun _ _ => textBytes_injective).mono
  intro text htext
  exact ⟨htext, fun _ _ => trivial⟩

/-- The tag tells a literal from a lease. -/
theorem Encoder.tagged_injective {a b : EnvSource} (h : tagged a = tagged b) : a = b := by
  cases a with
  | literal v =>
      cases b with
      | literal w => simpa [tagged] using h
      | secretLease lease => simp [tagged] at h
  | secretLease lease =>
      cases b with
      | literal w => simp [tagged] at h
      | secretLease lease' =>
          cases lease
          cases lease'
          simpa [tagged] using h

def EntryFits (entry : EnvEntry) : Prop :=
  TextFits entry.name ∧ TextFits (Encoder.tagged entry.source).2

theorem delimited_entryBytes : Delimited EntryFits entryBytes := by
  have h := delimited_countedText.pair ((delimited_singleton (β := UInt8)).pair delimited_countedText)
  apply (h.comap (fun e : EnvEntry => (e.name, Encoder.tagged e.source)) _).mono
  · intro e he
    exact ⟨he.1, trivial, he.2⟩
  · intro a b hab
    obtain ⟨hname, hsource⟩ := Prod.mk.inj hab
    cases a
    cases b
    rw [EnvEntry.mk.injEq]
    exact ⟨hname, Encoder.tagged_injective hsource⟩

theorem NetDest.eq_of_fields {a b : NetDest} (h : (a.host, a.port) = (b.host, b.port)) : a = b := by
  obtain ⟨hhost, hport⟩ := Prod.mk.inj h
  cases a
  cases b
  rw [NetDest.mk.injEq]
  exact ⟨hhost, hport⟩

theorem delimited_destBytes : Delimited (fun d => TextFits d.host) destBytes := by
  have h := delimited_countedText.pair (delimited_word 2)
  apply (h.comap (fun d : NetDest => (d.host, d.port)) fun _ _ => NetDest.eq_of_fields).mono
  intro d hd
  exact ⟨hd, trivial⟩

/-! ### Descriptors and destinations -/

section Normalized

variable {α κ : Type} [DecidableEq α] [LinearOrder κ] {key : α → κ}
  [DecidableRel fun a b : α => key a ≤ key b] {l l' : List α}

theorem sortDedup_eq (key : α → κ) [DecidableRel fun a b : α => key a ≤ key b] (l : List α) :
    sortDedup (fun a b => key a ≤ key b) l = (sortOn key l).destutter (· ≠ ·) := by
  unfold sortDedup sortOn
  congr

theorem mem_sortDedup (key : α → κ) [DecidableRel fun a b : α => key a ≤ key b] (l : List α)
    (a : α) : a ∈ sortDedup (fun a b => key a ≤ key b) l ↔ a ∈ l := by
  rw [sortDedup_eq, mem_destutter_ne, mem_sortOn]

theorem sortedOn_sortDedup (hkey : Function.Injective key) (l : List α) :
    SortedOn key (sortDedup (fun a b => key a ≤ key b) l) := by
  rw [sortDedup_eq]
  exact sortedOn_destutter hkey (pairwise_sortOn key l)

/-- The normal form of a list is its set. -/
theorem sortDedup_eq_iff (hkey : Function.Injective key) :
    sortDedup (fun a b => key a ≤ key b) l = sortDedup (fun a b => key a ≤ key b) l' ↔
      ∀ a, a ∈ l ↔ a ∈ l' := by
  constructor
  · intro h a
    rw [← mem_sortDedup key l a, h, mem_sortDedup]
  · intro h
    apply (sortedOn_sortDedup hkey l).eq_of_mem_iff (sortedOn_sortDedup hkey l')
    intro a
    rw [mem_sortDedup, mem_sortDedup, h a]

theorem length_sortDedup_le (key : α → κ) [DecidableRel fun a b : α => key a ≤ key b]
    (l : List α) : (sortDedup (fun a b => key a ≤ key b) l).length ≤ l.length := by
  rw [sortDedup_eq, ← (perm_sortOn key l).length_eq]
  exact (List.destutter_sublist _ _).length_le

end Normalized

/-- There are no more descriptors than words. -/
theorem length_fds_lt (fds : List (BitVec 32)) :
    (sortDedup (fun a b => a.toNat ≤ b.toNat) fds).length < 256 ^ 8 := by
  have hkey : Function.Injective (BitVec.toNat (w := 32)) := fun _ _ => BitVec.eq_of_toNat_eq
  have hnodup := (sortedOn_sortDedup hkey fds).nodup_map
  have hsubset : (sortDedup (fun a b => a.toNat ≤ b.toNat) fds).map BitVec.toNat ⊆
      List.range (2 ^ 32) := by
    intro n hn
    obtain ⟨fd, -, rfl⟩ := List.mem_map.mp hn
    exact List.mem_range.mpr fd.isLt
  have hlength := (List.subperm_of_subset hnodup hsubset).length_le
  rw [List.length_map, List.length_range] at hlength
  omega

theorem bytes_ofFd_only (fds : List (BitVec 32)) :
    (CanonicalPolicy.ofFd (.only fds)).bytes =
      [1, 1] ++ countedBytes 8 fdBytes (sortDedup (fun a b => a.toNat ≤ b.toNat) fds) :=
  bytes_lenPrefixedU32List _ _

theorem ofFd_only_eq_iff {fds fds' : List (BitVec 32)} :
    CanonicalPolicy.ofFd (.only fds) = CanonicalPolicy.ofFd (.only fds') ↔
      ∀ fd, fd ∈ fds ↔ fd ∈ fds' := by
  have hkey : Function.Injective (BitVec.toNat (w := 32)) := fun _ _ => BitVec.eq_of_toNat_eq
  rw [← sortDedup_eq_iff hkey, CanonicalPolicy.mk.injEq, bytes_ofFd_only, bytes_ofFd_only,
    List.append_cancel_left_eq]
  constructor
  · intro h
    have hfits : ∀ fds : List (BitVec 32), _ ∧ ∀ fd ∈ sortDedup (fun a b => a.toNat ≤ b.toNat) fds,
      True := fun fds => ⟨length_fds_lt fds, fun _ _ => trivial⟩
    exact (delimited_fdBytes.counted 8).injective (hfits fds) (hfits fds') h
  · intro h
    rw [h]

theorem ofFd_eq_iff (p q : FdPolicy) :
    CanonicalPolicy.ofFd p = CanonicalPolicy.ofFd q ↔ p.granted = q.granted := by
  have hvariant : ∀ fds, CanonicalPolicy.ofFd .none ≠ CanonicalPolicy.ofFd (.only fds) := by
    intro fds h
    have hbytes := congrArg CanonicalPolicy.bytes h
    rw [bytes_ofFd_only] at hbytes
    simp [CanonicalPolicy.ofFd, Encoder.new, Encoder.variant, Encoder.finish, Family.byte,
      Encoder.extend] at hbytes
  cases p with
  | none =>
      cases q with
      | none => simp
      | only fds => simp [FdPolicy.granted, hvariant fds]
  | only fds =>
      cases q with
      | none => simp [FdPolicy.granted, (hvariant fds).symm]
      | only fds' =>
          rw [ofFd_only_eq_iff, FdPolicy.granted, FdPolicy.granted, Option.some.injEq, Set.ext_iff]
          rfl

theorem ofSpawn_eq_iff (p q : SpawnPolicy) :
    CanonicalPolicy.ofSpawn p = CanonicalPolicy.ofSpawn q ↔ p = q := by
  revert p q
  have hbytes : ∀ p : SpawnPolicy, (CanonicalPolicy.ofSpawn p).bytes = [2, UInt8.ofNat p.ctorIdx] := by
    intro p
    cases p <;> rfl
  intro p q
  rw [CanonicalPolicy.mk.injEq, hbytes, hbytes]
  cases p <;> cases q <;> decide

theorem textFits_of_size {text : String} (h : text.utf8ByteSize ≤ usizeMax) : TextFits text := by
  have hlength : (textBytes text).length = text.utf8ByteSize := rfl
  have hmax : usizeMax < 256 ^ 8 := by decide
  exact Nat.lt_of_le_of_lt (hlength ▸ h) hmax

theorem NetDest.key_injective : Function.Injective NetDest.key := by
  intro a b h
  obtain ⟨hhost, hport⟩ := Prod.mk.inj (toLex.injective h)
  apply NetDest.eq_of_fields
  rw [hhost, BitVec.eq_of_toNat_eq hport]

theorem bytes_ofNet_allowList (destinations : List NetDest) :
    (CanonicalPolicy.ofNet (.allowList destinations)).bytes =
      [4, 1] ++ countedBytes 8 destBytes (sortDedup (fun a b => a.key ≤ b.key) destinations) :=
  bytes_lenPrefixedDestList _ _

theorem NetPolicy.Held.fits {destinations : List NetDest}
    (h : (NetPolicy.allowList destinations).Held) :
    (sortDedup (fun a b => a.key ≤ b.key) destinations).length < 256 ^ 8 ∧
      ∀ d ∈ sortDedup (fun a b => a.key ≤ b.key) destinations, TextFits d.host := by
  constructor
  · have hmax : usizeMax < 256 ^ 8 := by decide
    have hlength := length_sortDedup_le NetDest.key destinations
    exact Nat.lt_of_le_of_lt (hlength.trans h.1) hmax
  · intro d hd
    exact textFits_of_size (h.2 d ((mem_sortDedup NetDest.key destinations d).mp hd))

/-- The set decides the bytes, of whatever lengths. -/
theorem ofNet_allowList_eq {ds' : List NetDest} (h : ∀ d, d ∈ ds ↔ d ∈ ds') :
    CanonicalPolicy.ofNet (.allowList ds) = CanonicalPolicy.ofNet (.allowList ds') := by
  rw [CanonicalPolicy.mk.injEq, bytes_ofNet_allowList, bytes_ofNet_allowList,
    (sortDedup_eq_iff NetDest.key_injective).mpr h]

theorem mem_allowed_iff {d : NetDest} :
    (d.host, d.port) ∈ {p | ∃ d ∈ ds, (d.host, d.port) = p} ↔ d ∈ ds := by
  constructor
  · rintro ⟨e, he, hfields⟩
    exact NetDest.eq_of_fields hfields ▸ he
  · intro hd
    exact ⟨d, hd, rfl⟩

theorem allowed_eq_iff {ds' : List NetDest} :
    (NetPolicy.allowList ds).allowed = (NetPolicy.allowList ds').allowed ↔
      ∀ d, d ∈ ds ↔ d ∈ ds' := by
  rw [NetPolicy.allowed, NetPolicy.allowed, Option.some.injEq, Set.ext_iff]
  constructor
  · intro h d
    rw [← mem_allowed_iff, h, mem_allowed_iff]
  · intro h p
    exact (mem_allowed_iff (d := ⟨p.1, p.2⟩)).trans ((h _).trans mem_allowed_iff.symm)

theorem ofNet_eq_iff {p q : NetPolicy} (hp : p.Held) (hq : q.Held) :
    CanonicalPolicy.ofNet p = CanonicalPolicy.ofNet q ↔ p.allowed = q.allowed := by
  have hvariant : ∀ ds, CanonicalPolicy.ofNet .denyAll ≠ CanonicalPolicy.ofNet (.allowList ds) := by
    intro ds h
    have hbytes := congrArg CanonicalPolicy.bytes h
    rw [bytes_ofNet_allowList] at hbytes
    simp [CanonicalPolicy.ofNet, Encoder.new, Encoder.variant, Encoder.finish, Family.byte,
      Encoder.extend] at hbytes
  cases p with
  | denyAll =>
      cases q with
      | denyAll => simp
      | allowList ds => simp [NetPolicy.allowed, hvariant ds]
  | allowList ds =>
      cases q with
      | denyAll => simp [NetPolicy.allowed, (hvariant ds).symm]
      | allowList ds' =>
          rw [allowed_eq_iff]
          constructor
          · intro h
            have hbytes := congrArg CanonicalPolicy.bytes h
            rw [bytes_ofNet_allowList, bytes_ofNet_allowList, List.append_cancel_left_eq] at hbytes
            apply (sortDedup_eq_iff NetDest.key_injective).mp
            exact (delimited_destBytes.counted 8).injective hp.fits hq.fits hbytes
          · exact ofNet_allowList_eq

/-! ### Environments -/

namespace EnvPolicy

/-- The gate on one entry: its name is new, and its bytes are added up. -/
theorem checkEntries_cons {seen : List String} {e : EnvEntry} {rest : List EnvEntry}
    (h : checkEntries total seen (e :: rest) = .ok t) :
    e.name ∉ seen ∧
      checkEntries (addLength (addLength total e.name) (Encoder.tagged e.source).2)
        (e.name :: seen) rest = .ok t := by
  obtain ⟨name, source⟩ := e
  rw [checkEntries] at h
  obtain ⟨-, h⟩ := ifError_ok_iff.mp h
  cases hbyte : reservedByte name with
  | some byte => simp [hbyte] at h
  | none =>
      simp only [hbyte] at h
      obtain ⟨hseen, h⟩ := ifError_ok_iff.mp h
      refine ⟨hseen, ?_⟩
      cases source with
      | literal value => exact (ifError_ok_iff.mp h).2
      | secretLease lease => exact h

theorem le_addLength_iff {text : String} (ht : t < usizeMax) (h : addLength total text ≤ t) :
    total ≤ t ∧ text.utf8ByteSize ≤ t := by
  unfold addLength at h
  omega

/-- No name twice, and no text longer than the table is counted to be. -/
theorem checkEntries_ok {seen : List String} (h : checkEntries total seen entries = .ok t)
    (ht : t < usizeMax) :
    total ≤ t ∧ (entries.map (·.name)).Nodup ∧
      ∀ e ∈ entries, e.name ∉ seen ∧ e.name.utf8ByteSize ≤ t ∧
        (Encoder.tagged e.source).2.utf8ByteSize ≤ t := by
  induction entries generalizing total seen with
  | nil =>
      cases h
      simp
  | cons e rest ih =>
      obtain ⟨hseen, h⟩ := checkEntries_cons h
      obtain ⟨htotal, hnodup, hrest⟩ := ih h
      obtain ⟨htotal, hpayload⟩ := le_addLength_iff ht htotal
      obtain ⟨htotal, hname⟩ := le_addLength_iff ht htotal
      refine ⟨htotal, ?_, ?_⟩
      · apply List.nodup_cons.mpr
        refine ⟨?_, hnodup⟩
        intro hmem
        obtain ⟨e', he', heq⟩ := List.mem_map.mp hmem
        exact (hrest e' he').1 (heq ▸ List.mem_cons_self)
      · intro e' he'
        rcases List.mem_cons.mp he' with rfl | he'
        · exact ⟨hseen, hname, hpayload⟩
        · obtain ⟨hfresh, hsizes⟩ := hrest e' he'
          exact ⟨fun hmem => hfresh (List.mem_cons_of_mem _ hmem), hsizes⟩

/-- What the gate lets through: a map from names, of texts that fit their counts. -/
structure Admitted (entries : List EnvEntry) : Prop where
  names : (entries.map (·.name)).Nodup
  length : entries.length ≤ maxEnvEntries
  fits : ∀ e ∈ entries, EntryFits e

theorem admitted_of_validate (h : (EnvPolicy.exact entries).validate = .ok ()) :
    Admitted entries := by
  rw [validate] at h
  obtain ⟨hlength, h⟩ := ifError_ok_iff.mp h
  obtain ⟨t, hcheck, h⟩ := bindOk_iff.mp h
  obtain ⟨hbytes, -⟩ := ifError_ok_iff.mp h
  have hmax : maxEnvTotalBytes < usizeMax := by decide
  have ht : t < usizeMax := Nat.lt_of_le_of_lt (Nat.le_of_not_lt hbytes) hmax
  obtain ⟨-, hnames, hentries⟩ := checkEntries_ok hcheck ht
  refine ⟨hnames, Nat.le_of_not_lt hlength, ?_⟩
  intro e he
  obtain ⟨-, hname, hpayload⟩ := hentries e he
  exact ⟨textFits_of_size (hname.trans ht.le), textFits_of_size (hpayload.trans ht.le)⟩

theorem Admitted.sortedOn (h : Admitted entries) :
    SortedOn EnvEntry.name (sortOn EnvEntry.name entries) :=
  sortedOn_sortOn h.names

theorem Admitted.fits_sorted (h : Admitted entries) :
    (sortOn EnvEntry.name entries).length < 256 ^ 8 ∧
      ∀ e ∈ sortOn EnvEntry.name entries, EntryFits e := by
  constructor
  · have hmax : maxEnvEntries < 256 ^ 8 := by decide
    rw [(perm_sortOn EnvEntry.name entries).length_eq]
    exact Nat.lt_of_le_of_lt h.length hmax
  · intro e he
    exact h.fits e (mem_sortOn.mp he)

/-- Under unique names, an entry is found under its name. -/
theorem Admitted.sourceOf_eq_some (h : Admitted entries) {name : String} {source : EnvSource} :
    (EnvPolicy.exact entries).sourceOf name = some source ↔ ⟨name, source⟩ ∈ entries := by
  simp only [sourceOf, Option.map_eq_some_iff]
  constructor
  · rintro ⟨e, hfind, rfl⟩
    have hname : e.name = name := by simpa using List.find?_some hfind
    exact hname ▸ List.mem_of_find?_eq_some hfind
  · intro hmem
    cases hfind : entries.find? (·.name = name) with
    | none =>
        have hnone := List.find?_eq_none.mp hfind _ hmem
        simp at hnone
    | some e =>
        have hname : e.name = name := by simpa using List.find?_some hfind
        have hsame : e = ⟨name, source⟩ := by
          exact List.inj_on_of_nodup_map h.names (List.mem_of_find?_eq_some hfind) hmem hname
        exact ⟨e, rfl, by rw [hsame]⟩

theorem Admitted.sourceOf_eq_iff {entries' : List EnvEntry} (h : Admitted entries)
    (h' : Admitted entries') :
    (EnvPolicy.exact entries).sourceOf = (EnvPolicy.exact entries').sourceOf ↔
      ∀ e, e ∈ entries ↔ e ∈ entries' := by
  constructor
  · intro heq e
    rw [← h.sourceOf_eq_some, heq, h'.sourceOf_eq_some]
  · intro hmem
    funext name
    apply Option.ext
    intro source
    rw [h.sourceOf_eq_some, hmem, h'.sourceOf_eq_some]

end EnvPolicy

theorem bytes_ofEnv_exact (entries : List EnvEntry) :
    (CanonicalPolicy.ofEnv (.exact entries)).bytes =
      [3, 0] ++ countedBytes 8 entryBytes (sortOn EnvEntry.name entries) :=
  bytes_lenPrefixedEnvList _ _

theorem ofEnv_eq_iff {p q : EnvPolicy} (hp : p.validate = .ok ()) (hq : q.validate = .ok ()) :
    CanonicalPolicy.ofEnv p = CanonicalPolicy.ofEnv q ↔ p.sourceOf = q.sourceOf := by
  obtain ⟨entries⟩ := p
  obtain ⟨entries'⟩ := q
  have h := EnvPolicy.admitted_of_validate hp
  have h' := EnvPolicy.admitted_of_validate hq
  rw [h.sourceOf_eq_iff h', CanonicalPolicy.mk.injEq, bytes_ofEnv_exact, bytes_ofEnv_exact,
    List.append_cancel_left_eq]
  constructor
  · intro hbytes e
    have hsame := (delimited_entryBytes.counted 8).injective h.fits_sorted h'.fits_sorted hbytes
    have hmem : e ∈ sortOn EnvEntry.name entries ↔ e ∈ sortOn EnvEntry.name entries' := by
      rw [hsame]
    rwa [mem_sortOn, mem_sortOn] at hmem
  · intro hmem
    have hsame : sortOn EnvEntry.name entries = sortOn EnvEntry.name entries' := by
      apply h.sortedOn.eq_of_mem_iff h'.sortedOn
      intro e
      rw [mem_sortOn, mem_sortOn, hmem]
    rw [hsame]

/-! ### All families -/

theorem head_canonical (p : KeyedPolicy) : p.canonical.bytes.head? = some p.family.byte := by
  cases p with
  | fd policy =>
      cases policy with
      | none => rfl
      | only fds => exact congrArg List.head? (bytes_ofFd_only fds)
  | spawn policy => cases policy <;> rfl
  | env policy valid =>
      cases policy with
      | exact entries => exact congrArg List.head? (bytes_ofEnv_exact entries)
  | net policy held =>
      cases policy with
      | denyAll => rfl
      | allowList ds => exact congrArg List.head? (bytes_ofNet_allowList ds)

/-- The first byte tells the family. -/
theorem family_eq_of_canonical {p q : KeyedPolicy} (h : p.canonical = q.canonical) :
    p.family = q.family := by
  have hhead : p.family.byte = q.family.byte := by
    apply Option.some.inj
    rw [← head_canonical, h, head_canonical]
  revert hhead
  cases p.family <;> cases q.family <;> decide

theorem family_eq_of_meaning {p q : KeyedPolicy} (h : p.meaning = q.meaning) :
    p.family = q.family := by
  cases p <;> cases q <;> first | rfl | cases h

theorem canonical_eq_iff (p q : KeyedPolicy) :
    p.canonical = q.canonical ↔ p.meaning = q.meaning := by
  have hother : p.family ≠ q.family → (p.canonical = q.canonical ↔ p.meaning = q.meaning) :=
    fun hne => ⟨fun h => absurd (family_eq_of_canonical h) hne,
      fun h => absurd (family_eq_of_meaning h) hne⟩
  cases p with
  | fd policy =>
      cases q with
      | fd policy' => exact (ofFd_eq_iff _ _).trans (by simp [KeyedPolicy.meaning])
      | spawn _ | env _ _ | net _ _ => exact hother (by simp [KeyedPolicy.family])
  | spawn policy =>
      cases q with
      | spawn policy' => exact (ofSpawn_eq_iff _ _).trans (by simp [KeyedPolicy.meaning])
      | fd _ | env _ _ | net _ _ => exact hother (by simp [KeyedPolicy.family])
  | env policy valid =>
      cases q with
      | env policy' valid' =>
          exact (ofEnv_eq_iff valid valid').trans (by simp [KeyedPolicy.meaning])
      | fd _ | spawn _ | net _ _ => exact hother (by simp [KeyedPolicy.family])
  | net policy held =>
      cases q with
      | net policy' held' => exact (ofNet_eq_iff held held').trans (by simp [KeyedPolicy.meaning])
      | fd _ | spawn _ | env _ _ => exact hother (by simp [KeyedPolicy.family])

/-- Two policies share their bytes exactly when they mean the same. In particular the bytes do
not depend on the order of a list or on how often it repeats an element (a table of variables
that repeats a name does not pass its gate), and a literal never shares them with a lease of
the same text. -/
theorem canonical_bytes_mean_the_policy :
    (∀ p q : KeyedPolicy, p.canonical = q.canonical ↔ p.meaning = q.meaning) ∧
    (∀ fds fds' : List (BitVec 32), (∀ fd, fd ∈ fds ↔ fd ∈ fds') →
      CanonicalPolicy.ofFd (.only fds) = CanonicalPolicy.ofFd (.only fds')) ∧
    (∀ ds ds' : List NetDest, (∀ d, d ∈ ds ↔ d ∈ ds') →
      CanonicalPolicy.ofNet (.allowList ds) = CanonicalPolicy.ofNet (.allowList ds')) ∧
    (∀ es es' : List EnvEntry, (∀ e, e ∈ es ↔ e ∈ es') →
      (EnvPolicy.exact es).validate = .ok () → (EnvPolicy.exact es').validate = .ok () →
        CanonicalPolicy.ofEnv (.exact es) = CanonicalPolicy.ofEnv (.exact es')) ∧
    (∀ es : List EnvEntry, ¬ (es.map (·.name)).Nodup → (EnvPolicy.exact es).validate ≠ .ok ()) ∧
    ∀ (es es' : List EnvEntry) (name text : String), ⟨name, .literal text⟩ ∈ es →
      ⟨name, .secretLease ⟨text⟩⟩ ∈ es' → (EnvPolicy.exact es).validate = .ok () →
        (EnvPolicy.exact es').validate = .ok () →
          CanonicalPolicy.ofEnv (.exact es) ≠ CanonicalPolicy.ofEnv (.exact es') := by
  refine ⟨canonical_eq_iff, ?_, ?_, ?_, ?_, ?_⟩
  · intro fds fds' h
    exact ofFd_only_eq_iff.mpr h
  · intro ds ds' h
    exact ofNet_allowList_eq h
  · intro es es' h hes hes'
    apply (ofEnv_eq_iff hes hes').mpr
    have hadmitted := EnvPolicy.admitted_of_validate hes
    exact (hadmitted.sourceOf_eq_iff (EnvPolicy.admitted_of_validate hes')).mpr h
  · intro es hrepeat hvalid
    exact hrepeat (EnvPolicy.admitted_of_validate hvalid).names
  · intro es es' name text hliteral hlease hes hes' heq
    have hsource := (ofEnv_eq_iff hes hes').mp heq
    have hfirst := (EnvPolicy.admitted_of_validate hes).sourceOf_eq_some.mpr hliteral
    have hsecond := (EnvPolicy.admitted_of_validate hes').sourceOf_eq_some.mpr hlease
    rw [hsource, hsecond] at hfirst
    cases hfirst

/-- A token as a literal and as a lease. -/
theorem canonical_bytes_token :
    CanonicalPolicy.ofEnv (.exact [⟨"TOKEN", .literal "x"⟩, ⟨"A", .literal ""⟩]) ≠
        CanonicalPolicy.ofEnv (.exact [⟨"TOKEN", .secretLease ⟨"x"⟩⟩, ⟨"A", .literal ""⟩]) ∧
      CanonicalPolicy.ofEnv (.exact [⟨"TOKEN", .literal "x"⟩, ⟨"A", .literal ""⟩]) =
        CanonicalPolicy.ofEnv (.exact [⟨"A", .literal ""⟩, ⟨"TOKEN", .literal "x"⟩]) ∧
      CanonicalPolicy.ofFd (.only [3, 1, 3]) = CanonicalPolicy.ofFd (.only [1, 3]) ∧
      CanonicalPolicy.ofNet (.allowList [⟨"b", 1⟩, ⟨"a", 2⟩]) =
        CanonicalPolicy.ofNet (.allowList [⟨"a", 2⟩, ⟨"b", 1⟩, ⟨"a", 2⟩]) ∧
      (EnvPolicy.exact [⟨"A", .literal ""⟩, ⟨"A", .literal ""⟩]).validate ≠ .ok () := by
  obtain ⟨-, hfds, hdests, henv, hrepeat, htags⟩ := canonical_bytes_mean_the_policy
  refine ⟨?_, ?_, ?_, ?_, ?_⟩
  · exact htags _ _ "TOKEN" "x" (by simp) (by simp) (by decide +kernel) (by decide +kernel)
  · exact henv _ _ (by simp [or_comm]) (by decide +kernel) (by decide +kernel)
  · exact hfds _ _ (by simp [or_comm])
  · exact hdests _ _ (by simp [or_comm])
  · exact hrepeat _ (by decide)

end Batpak.Bvisor
