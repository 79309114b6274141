import CloneVmm.Lib.CacheFill
import CloneVmm.Storage.Backing
import CloneVmm.Storage.FlatDisk
import Mathlib.Order.Interval.Finset.Nat

namespace CloneVmm.Storage

open CloneVmm.Lib CloneVmm.Lib.Prog

def tablesOf (cache : L2Cache) : Finset Nat := cache.keys.toFinset

theorem card_tablesOf (cache : L2Cache) : (tablesOf cache).card = cache.keys.length :=
  List.toFinset_card_of_nodup cache.keys_nodup

theorem mem_tablesOf {cache : L2Cache} {i : Nat} : i ∈ tablesOf cache ↔ ∃ entry, cache.lookup i = some entry := by
  rw [tablesOf, List.mem_toFinset, ← AList.mem_keys, ← AList.lookup_isSome, Option.isSome_iff_exists]

theorem tablesOf_insert (cache : L2Cache) (i : Nat) (entry : L2CacheEntry) :
    tablesOf (cache.insert i entry) = insert i (tablesOf cache) := by
  ext j
  simp only [tablesOf, List.mem_toFinset, Finset.mem_insert, ← AList.mem_keys, AList.mem_insert]

theorem tablesOf_erase (cache : L2Cache) (i : Nat) : tablesOf (cache.erase i) = (tablesOf cache).erase i := by
  ext j
  simp only [tablesOf, List.mem_toFinset, Finset.mem_erase, ← AList.mem_keys, AList.mem_erase]

def referred (l1 : List Nat) (i : Nat) : Option Nat :=
  (l1[i]?).bind fun e => if e &&& l1OffsetMask = 0 then none else some (e &&& l1OffsetMask)

theorem referred_eq_none {l1 : List Nat} {i e : Nat} (he : l1[i]? = some e) (hzero : e &&& l1OffsetMask = 0) :
    referred l1 i = none := by
  rw [referred, he, Option.bind_some, if_pos hzero]

theorem referred_eq_some {l1 : List Nat} {i e : Nat} (he : l1[i]? = some e) (hne : e &&& l1OffsetMask ≠ 0) :
    referred l1 i = some (e &&& l1OffsetMask) := by
  rw [referred, he, Option.bind_some, if_neg hne]

namespace Qcow2File

variable {B : Type} {host : Host} {h : Qcow2Header} {l1 : List Nat} {keys : Finset Nat} {q q' : Qcow2File B} {i off : Nat}

structure Located (q : Qcow2File B) : Prop where
  bits : 2 ^ 9 ∣ q.header.clusterSize
  l1Length : q.l1Table.length ≤ 2 ^ 32
  aligned : q.header.clusterSize ∣ q.nextAllocOffset
  positive : 0 < q.nextAllocOffset
  cached : ∀ i entry, q.l2Cache.lookup i = some entry → referred q.l1Table i = some entry.hostOffset

/-- The first level and the cached tables, for an image that was opened with the header `h`. -/
structure Tables (h : Qcow2Header) (l1 : List Nat) (keys : Finset Nat) (q : Qcow2File B) : Prop extends Located q where
  clusterBits : q.header.clusterBits = h.clusterBits
  l1Table : q.l1Table = l1
  keys : tablesOf q.l2Cache = keys

theorem Located.tables (hq : Located q) : Tables q.header q.l1Table (tablesOf q.l2Cache) q := ⟨hq, rfl, rfl, rfl⟩

namespace Tables

theorem clusterSize (hq : Tables h l1 keys q) : q.header.clusterSize = h.clusterSize := by
  rw [Qcow2Header.clusterSize, hq.clusterBits, Qcow2Header.clusterSize]

theorem l1IndexOf (hq : Tables h l1 keys q) (pos : Nat) : Qcow2File.l1IndexOf q.header pos = Qcow2File.l1IndexOf h pos := by
  simp only [Qcow2File.l1IndexOf, Qcow2Header.l2EntriesPerTable, hq.clusterSize]

theorem mem_iff (hq : Tables h l1 keys q) : i ∈ keys ↔ ∃ entry, q.l2Cache.lookup i = some entry := by
  rw [← hq.keys, mem_tablesOf]

theorem referred_of_lookup (hq : Tables h l1 keys q) {entry : L2CacheEntry} (hlookup : q.l2Cache.lookup i = some entry) :
    referred l1 i = some entry.hostOffset := by
  rw [← hq.l1Table]
  exact hq.cached i entry hlookup

theorem referred_of_mem (hq : Tables h l1 keys q) (hi : i ∈ keys) : ∃ off, referred l1 i = some off := by
  obtain ⟨entry, hlookup⟩ := hq.mem_iff.mp hi
  exact ⟨entry.hostOffset, hq.referred_of_lookup hlookup⟩

theorem of_cache (hq : Tables h l1 keys q) (hbits : q'.header.clusterBits = q.header.clusterBits)
    (hl1 : q'.l1Table = q.l1Table) (hcache : q'.l2Cache = q.l2Cache)
    (haligned : q.header.clusterSize ∣ q'.nextAllocOffset) (hpositive : 0 < q'.nextAllocOffset) :
    Tables h l1 keys q' := by
  have hsize : q'.header.clusterSize = q.header.clusterSize := by
    rw [Qcow2Header.clusterSize, hbits, Qcow2Header.clusterSize]
  refine ⟨⟨?_, ?_, ?_, hpositive, ?_⟩, hbits.trans hq.clusterBits, hl1.trans hq.l1Table, ?_⟩
  · rw [hsize]
    exact hq.bits
  · rw [hl1]
    exact hq.l1Length
  · rwa [hsize]
  · rw [hcache, hl1]
    exact hq.cached
  · rw [hcache, hq.keys]

theorem bump (hq : Tables h l1 keys q) (n : Nat) :
    Tables h l1 keys { q with nextAllocOffset := q.nextAllocOffset + n * q.header.clusterSize } :=
  hq.of_cache rfl rfl rfl (Nat.dvd_add hq.aligned (Nat.dvd_mul_left _ n)) (Nat.add_pos_left hq.positive _)

theorem recache (hq : Tables h l1 keys q) {cache : L2Cache} (counter : Nat)
    (hcached : ∀ i entry, cache.lookup i = some entry → referred l1 i = some entry.hostOffset) :
    Tables h l1 (tablesOf cache) (q.withCache cache counter) := by
  refine ⟨⟨hq.bits, hq.l1Length, hq.aligned, hq.positive, fun i entry hlookup => ?_⟩, hq.clusterBits, hq.l1Table, rfl⟩
  change referred q.l1Table i = _
  rw [hq.l1Table]
  exact hcached i entry hlookup

theorem insert (hq : Tables h l1 keys q) {entry : L2CacheEntry} (counter : Nat)
    (hentry : referred l1 i = some entry.hostOffset) :
    Tables h l1 (Insert.insert i keys) (q.withCache (q.l2Cache.insert i entry) counter) := by
  rw [← hq.keys, ← tablesOf_insert]
  refine hq.recache counter fun j found hfound => ?_
  by_cases hij : j = i
  · subst hij
    rw [AList.lookup_insert] at hfound
    cases hfound
    exact hentry
  · rw [AList.lookup_insert_ne hij] at hfound
    exact hq.referred_of_lookup hfound

theorem reinsert (hq : Tables h l1 keys q) {entry : L2CacheEntry} (counter : Nat) (hi : i ∈ keys)
    (hentry : referred l1 i = some entry.hostOffset) :
    Tables h l1 keys (q.withCache (q.l2Cache.insert i entry) counter) := by
  have hinsert := hq.insert counter hentry
  rwa [Finset.insert_eq_of_mem hi] at hinsert

theorem erase (hq : Tables h l1 keys q) (i counter : Nat) :
    Tables h l1 (keys.erase i) (q.withCache (q.l2Cache.erase i) counter) := by
  rw [← hq.keys, ← tablesOf_erase]
  refine hq.recache counter fun j found hfound => ?_
  by_cases hij : j = i
  · subst hij
    rw [AList.lookup_erase] at hfound
    cases hfound
  · rw [AList.lookup_erase_ne hij] at hfound
    exact hq.referred_of_lookup hfound

end Tables

section Keeps

theorem keeps_setLen (n : Nat) : (setLen host n).Keeps (Tables (B := B) h l1 keys) fun _ => True :=
  Keeps.ite (keeps_modifyGet fun _ hq => hq.of_cache rfl rfl rfl hq.aligned hq.positive) keeps_throw

theorem keeps_writeAll (off : Nat) (bs : Bytes) :
    (writeAll host off bs).Keeps (Tables (B := B) h l1 keys) fun _ => True :=
  Keeps.ite (keeps_modifyGet fun _ hq => hq.of_cache rfl rfl rfl hq.aligned hq.positive) keeps_throw

theorem keeps_withRefcountTable (g : Qcow2File B → List Nat) :
    (modifyGet fun q => ((), { q with refcountTable := g q }) : Io B Unit).Keeps (Tables h l1 keys) fun _ => True :=
  keeps_modifyGet fun _ hq => hq.of_cache rfl rfl rfl hq.aligned hq.positive

theorem keeps_allocRefcountBlock (i : Nat) :
    (allocRefcountBlock host i).Keeps (Tables (B := B) h l1 keys) fun _ => True := by
  intro q hq
  apply wp_get_bind
  apply wp_get_bind
  have hbump := hq.bump 1
  rw [Nat.one_mul] at hbump
  refine Ends.bind (R := fun _ => True) ⟨hbump, trivial⟩ fun _ _ => ?_
  refine (keeps_setLen _).bind fun _ _ => (keeps_withRefcountTable _).bind fun _ _ => ?_
  exact Keeps.ite (keeps_writeAll _ _) (keeps_pure trivial)

theorem keeps_setRefcount (clusterOffset refcount : Nat) :
    (setRefcount host clusterOffset refcount).Keeps (Tables (B := B) h l1 keys) fun _ => True := by
  refine keeps_get.bind fun q _ => Keeps.bind (m := ensureRefcountBlock host _) (R := fun _ => True) ?_ fun _ _ => ?_
  · refine (keeps_withRefcountTable _).bind fun _ _ => keeps_get.bind fun q' _ => ?_
    exact Keeps.ite (keeps_allocRefcountBlock _) (keeps_pure trivial)
  · exact keeps_get.bind fun q' _ => (keeps_orFail _ _).bind fun _ _ => keeps_writeAll _ _

def Allocatable (host : Host) (h : Qcow2Header) (off : Nat) : Prop :=
  h.clusterSize ∣ off ∧ 0 < off ∧ off ≤ host.limit

theorem keeps_allocCluster : (allocCluster host).Keeps (Tables (B := B) h l1 keys) (Allocatable host h) := by
  intro q hq
  have haligned := hq.clusterSize ▸ hq.aligned
  unfold allocCluster
  apply wp_get_bind
  apply wp_get_bind
  have hbump := hq.bump 1
  rw [Nat.one_mul] at hbump
  apply wp_modifyGet_bind
  apply Wp.bind
  apply wp_setLen
  · intro hlimit
    have hgrown : Tables h l1 keys (q.extended (q.nextAllocOffset + q.header.clusterSize)) :=
      hbump.of_cache rfl rfl rfl hbump.aligned hbump.positive
    refine (keeps_setRefcount q.nextAllocOffset 1 _ hgrown).bind fun _ _ => keeps_pure ⟨haligned, hq.positive, ?_⟩
    exact (Nat.le_add_right _ _).trans hlimit
  · exact fun _ => hbump

theorem keeps_setRefcounts (offsets : List Nat) :
    (setRefcounts host offsets).Keeps (Tables (B := B) h l1 keys) fun _ => True := by
  induction offsets with
  | nil => exact keeps_pure trivial
  | cons offset offsets ih => exact (keeps_setRefcount offset 1).bind fun _ _ => ih

theorem keeps_growRefcountTable : (growRefcountTable host).Keeps (Tables (B := B) h l1 keys) fun _ => True := by
  refine keeps_get.bind fun q _ => Keeps.ite (fun q' hq' => ?_) (keeps_pure trivial)
  apply wp_get_bind
  apply wp_get_bind
  refine Ends.bind (R := fun _ => True) ⟨hq'.bump _, trivial⟩ fun _ _ => ?_
  refine (keeps_setLen _).bind fun _ _ => (keeps_setRefcounts _).bind fun _ _ => ?_
  refine Keeps.bind (R := fun _ => True) (keeps_modifyGet fun q'' hq'' => ?_) fun _ _ =>
    keeps_get.bind fun q'' _ => keeps_writeAll _ _
  exact hq''.of_cache rfl rfl rfl hq''.aligned hq''.positive

theorem keeps_flushL2Table (i : Nat) : (flushL2Table host i).Keeps (Tables (B := B) h l1 keys) fun _ => True := by
  intro q hq
  apply wp_get_bind
  cases hlookup : q.l2Cache.lookup i with
  | none => exact hq
  | some entry =>
    have hi : i ∈ keys := hq.mem_iff.mpr ⟨entry, hlookup⟩
    have hentry := hq.referred_of_lookup hlookup
    refine Keeps.ite ((keeps_writeAll _ _).bind fun _ _ => keeps_modifyGet fun q' hq' => ?_) (keeps_pure trivial) q hq
    exact hq'.reinsert q'.accessCounter hi hentry

theorem keeps_flushL2Tables (indices : List Nat) :
    (flushL2Tables host indices).Keeps (Tables (B := B) h l1 keys) fun _ => True := by
  induction indices with
  | nil => exact keeps_pure trivial
  | cons i indices ih => exact (keeps_flushL2Table i).bind fun _ _ => ih

theorem keeps_flush : (flush host).Keeps (Tables (B := B) h l1 keys) fun _ => True := by
  refine keeps_get.bind fun q _ => (keeps_flushL2Tables _).bind fun _ _ => ?_
  refine Keeps.bind (m := writeL1Table host) (keeps_get.bind fun q _ => keeps_writeAll _ _) fun _ _ => ?_
  exact keeps_growRefcountTable.bind fun _ _ => keeps_get.bind fun q _ => keeps_writeAll _ _

variable [Backing B]

theorem keeps_readBacking (offset n : Nat) :
    (readBacking host offset n).Keeps (Tables (B := B) h l1 keys) fun _ => True := by
  intro q hq
  apply wp_get_bind
  cases hbacking : q.backing with
  | none => exact keeps_pure trivial q hq
  | some b =>
    have hrebacked : Tables h l1 keys { q with backing := some (Backing.readAt host b offset n).2 } :=
      hq.of_cache rfl rfl rfl hq.aligned hq.positive
    refine Ends.bind (R := fun _ => True) (m := modifyGet _) ⟨hrebacked, trivial⟩ fun _ _ => ?_
    cases (Backing.readAt host b offset n).1 with
    | error e => exact keeps_throw
    | ok bytes => exact keeps_pure trivial

theorem keeps_fillCluster (clusterBits pos len newOffset : Nat) :
    (fillCluster host clusterBits pos len newOffset).Keeps (Tables (B := B) h l1 keys) fun _ => True :=
  Keeps.ite ((keeps_readBacking _ _).bind fun _ _ => keeps_writeAll _ _) (keeps_pure trivial)

end Keeps

inductive Reached (l1 : List Nat) (keys : Finset Nat) (i : Nat) : List Nat → Finset Nat → Prop
  | access {off : Nat} {keys' : Finset Nat} (hoff : referred l1 i = some off)
      (h : Access l2CacheMaxTables keys i keys') : Reached l1 keys i l1 keys'
  | create {e off : Nat} (hi : i < l1.length) (hnone : referred l1 i = none) (hnew : i ∉ keys)
      (hoff : referred (l1.set i e) i = some off) : Reached l1 keys i (l1.set i e) (insert i keys)

def Broken (l1 : List Nat) (keys : Finset Nat) (i : Nat) (l1' : List Nat) (keys' : Finset Nat) : Prop :=
  ∃ keys₁, keys' ⊆ keys₁ ∧ (l1' = l1 ∧ keys₁ = keys ∨ Reached l1 keys i l1' keys₁)

theorem Broken.of_subset {keys' : Finset Nat} (h : keys' ⊆ keys) : Broken l1 keys i l1 keys' :=
  ⟨keys, h, .inl ⟨rfl, rfl⟩⟩

theorem Reached.broken {l1' : List Nat} {keys' : Finset Nat} (h : Reached l1 keys i l1' keys') :
    Broken l1 keys i l1' keys' := ⟨keys', Finset.Subset.refl _, .inr h⟩

def HasReached (h : Qcow2Header) (l1 : List Nat) (keys : Finset Nat) (i : Nat) (q : Qcow2File B) : Prop :=
  ∃ l1' keys', Tables h l1' keys' q ∧ Reached l1 keys i l1' keys'

def HasBroken (h : Qcow2Header) (l1 : List Nat) (keys : Finset Nat) (i : Nat) (q : Qcow2File B) : Prop :=
  ∃ l1' keys', Tables h l1' keys' q ∧ Broken l1 keys i l1' keys'

theorem Reached.mem {l1' : List Nat} {keys' : Finset Nat} (h : Reached l1 keys i l1' keys') : i ∈ keys' := by
  cases h with
  | access _ haccess => exact haccess.mem
  | create => exact Finset.mem_insert_self _ _

theorem Reached.again {l1' l1'' : List Nat} {keys' keys'' : Finset Nat} (h : Reached l1 keys i l1' keys')
    (h' : Reached l1' keys' i l1'' keys'') : l1'' = l1' ∧ keys'' = keys' := by
  cases h' with
  | access _ haccess => exact ⟨rfl, haccess.eq_of_mem h.mem⟩
  | create _ _ hnew => exact absurd h.mem hnew

theorem Broken.after {l1' l1'' : List Nat} {keys' keys'' : Finset Nat} (h' : Broken l1' keys' i l1'' keys'')
    (h : Reached l1 keys i l1' keys') : Broken l1 keys i l1'' keys'' := by
  obtain ⟨keys₁, hsubset, ⟨rfl, rfl⟩ | hreached⟩ := h'
  · exact ⟨_, hsubset, .inr h⟩
  · obtain ⟨rfl, rfl⟩ := h.again hreached
    exact ⟨_, hsubset, .inr h⟩

theorem HasReached.hasBroken (hq : HasReached h l1 keys i q) : HasBroken h l1 keys i q := by
  obtain ⟨l1', keys', htables, hreached⟩ := hq
  exact ⟨l1', keys', htables, hreached.broken⟩

theorem Tables.hasBroken (hq : Tables h l1 keys q) : HasBroken h l1 keys i q :=
  ⟨l1, keys, hq, .of_subset (Finset.Subset.refl _)⟩

def HasAccessed (h : Qcow2Header) (l1 : List Nat) (keys : Finset Nat) (i : Nat) (q : Qcow2File B) : Prop :=
  ∃ off keys', referred l1 i = some off ∧ Tables h l1 keys' q ∧ Access l2CacheMaxTables keys i keys'

/-- An access fails after a table was left out for it, or when the table is there. -/
def HasStopped (h : Qcow2Header) (l1 : List Nat) (keys : Finset Nat) (i : Nat) (q : Qcow2File B) : Prop :=
  (∃ keys' ⊆ keys, Tables h l1 keys' q) ∨ HasAccessed h l1 keys i q

theorem HasAccessed.hasReached (hq : HasAccessed h l1 keys i q) : HasReached h l1 keys i q := by
  obtain ⟨off, keys', hoff, htables, haccess⟩ := hq
  exact ⟨l1, keys', htables, .access hoff haccess⟩

theorem HasStopped.hasBroken (hq : HasStopped h l1 keys i q) : HasBroken h l1 keys i q := by
  rcases hq with ⟨keys', hsubset, htables⟩ | haccessed
  · exact ⟨l1, keys', htables, .of_subset hsubset⟩
  · exact haccessed.hasReached.hasBroken

theorem Tables.hasStopped (hq : Tables h l1 keys q) : HasStopped h l1 keys i q :=
  .inl ⟨keys, Finset.Subset.refl _, hq⟩

section Access

theorem wp_makeRoom_tables (hq : Tables h l1 keys q) (hi : i ∉ keys) :
    (makeRoom host).Wp (fun _ q' => ∃ keys₁ ⊆ keys, Tables h l1 keys₁ q' ∧
      Access l2CacheMaxTables keys i (insert i keys₁)) (fun _ q' => Tables h l1 keys q') q := by
  have hcard : q.l2Cache.keys.length = keys.card := by rw [← card_tablesOf, hq.keys]
  unfold makeRoom
  apply wp_get_bind
  split
  · rename_i hfull
    rw [hcard] at hfull
    unfold evictL2Entry
    apply wp_get_bind
    dsimp only
    cases hvictim : (host.order q.l2Cache).argmin (lastAccessOf q.l2Cache) with
    | none =>
      have hempty : host.order q.l2Cache = [] := List.argmin_eq_none.mp hvictim
      have hlength := (host.order_perm q.l2Cache).length_eq
      rw [hempty, hcard, List.length_nil] at hlength
      have hroom : 0 < l2CacheMaxTables := by decide
      omega
    | some victim =>
      have hmem : victim ∈ q.l2Cache := (host.order_perm q.l2Cache).mem_iff.mp (List.argmin_mem hvictim)
      have hvictim' : victim ∈ keys := hq.mem_iff.mpr (Option.isSome_iff_exists.mp (AList.lookup_isSome.mpr hmem))
      apply Wp.seq (keeps_flushL2Table victim q hq)
      rintro _ q' ⟨hq', -⟩
      apply wp_modifyGet
      exact ⟨_, Finset.erase_subset _ _, hq'.erase victim q'.accessCounter, .replace hi hfull hvictim'⟩
  · rename_i hroom
    rw [hcard] at hroom
    exact wp_pure ⟨keys, Finset.Subset.refl _, hq, .load hi (Nat.lt_of_not_le hroom)⟩

theorem wp_ensureL2Cached_tables (hq : Tables h l1 keys q) (hoff : referred l1 i = some off) :
    (ensureL2Cached host i off).Wp (fun _ q' => ∃ keys', Tables h l1 keys' q' ∧ Access l2CacheMaxTables keys i keys')
      (fun _ q' => ∃ keys' ⊆ keys, Tables h l1 keys' q') q := by
  unfold ensureL2Cached
  apply wp_get_bind
  cases hlookup : q.l2Cache.lookup i with
  | some entry =>
    have hi : i ∈ keys := hq.mem_iff.mpr ⟨entry, hlookup⟩
    have hentry := hq.referred_of_lookup hlookup
    apply wp_modifyGet
    exact ⟨keys, hq.reinsert (q.accessCounter + 1) hi hentry, .hit hi⟩
  | none =>
    have hi : i ∉ keys := by
      intro hmem
      obtain ⟨entry, hentry⟩ := hq.mem_iff.mp hmem
      rw [hlookup] at hentry
      cases hentry
    unfold loadL2Table
    apply Wp.seq ((wp_makeRoom_tables hq hi).mono (fun _ _ hq' => hq')
      fun _ _ hq' => ⟨keys, Finset.Subset.refl _, hq'⟩)
    rintro _ q₁ ⟨keys₁, hsubset, hq₁, haccess⟩
    apply wp_get_bind
    cases readTable q₁.file off q₁.header.l2EntriesPerTable with
    | error e => exact wp_throw ⟨keys₁, hsubset, hq₁⟩
    | ok entries => exact wp_modifyGet ⟨_, Tables.insert hq₁ (q₁.accessCounter + 1) hoff, haccess⟩

theorem wp_getL2Entry_tables (hq : Tables h l1 keys q) (hoff : referred l1 i = some off) (l2Index : Nat) :
    (getL2Entry host i off l2Index).Wp (fun _ q' => HasAccessed h l1 keys i q') (fun _ q' => HasStopped h l1 keys i q')
      q := by
  apply Wp.seq ((wp_ensureL2Cached_tables hq hoff).mono (fun _ _ hq' => hq') fun _ _ hq' => .inl hq')
  rintro _ q₁ ⟨keys', hq₁, haccess⟩
  have haccessed : HasAccessed h l1 keys i q₁ := ⟨off, keys', hoff, hq₁, haccess⟩
  apply wp_get_bind
  cases q₁.l2Cache.lookup i with
  | none => exact wp_throw (.inr haccessed)
  | some entry =>
    apply Wp.bind
    refine wp_orFail rfl ?_
    cases entry.entries[l2Index]? with
    | none => exact wp_throw (.inr haccessed)
    | some e => exact wp_pure haccessed

theorem wp_translateCluster_tables (hq : Tables h l1 keys q) (pos : Nat) :
    (translateCluster host pos).Wp
      (fun r q' => HasAccessed h l1 keys (l1IndexOf h pos) q' ∨ (r = none ∧ Tables h l1 keys q'))
      (fun _ q' => HasStopped h l1 keys (l1IndexOf h pos) q') q := by
  unfold translateCluster
  apply wp_get_bind
  dsimp only
  rw [hq.l1IndexOf, hq.l1Table]
  split
  · cases he : l1[l1IndexOf h pos]? with
    | none => exact wp_throw hq.hasStopped
    | some e =>
      apply Wp.bind
      refine wp_orFail rfl ?_
      split
      · exact wp_pure (.inr ⟨rfl, hq⟩)
      · rename_i hne
        have hlength := hq.l1Length
        rw [hq.l1Table] at hlength
        have hindex : l1IndexOf h pos < l1.length := (List.getElem?_eq_some_iff.mp he).1
        rw [Nat.mod_eq_of_lt (hindex.trans_le hlength)]
        apply Wp.seq (wp_getL2Entry_tables hq (referred_eq_some he hne) _)
        intro l2Entry q' hq'
        cases hostOffsetOf l2Entry with
        | ok hostOffset => exact wp_pure (.inl hq')
        | error e => exact wp_throw (.inr hq')
  · exact wp_throw hq.hasStopped

theorem referred_set_ne {e j : Nat} (h : j ≠ i) : referred (l1.set i e) j = referred l1 j := by
  rw [referred, List.getElem?_set_ne h.symm, referred]

theorem referred_set_self (hi : i < l1.length) (hdvd : 2 ^ 9 ∣ off) (hlt : off < 2 ^ 56) (hne : off ≠ 0) :
    referred (l1.set i (off ||| l2FlagCopied)) i = some off := by
  rw [referred, List.getElem?_set_self hi, Option.bind_some, and_l1OffsetMask hdvd hlt, if_neg hne]

theorem Allocatable.referred_set (hlimit : host.limit ≤ 2 ^ 54) (hoff : Allocatable host h off)
    (hbits : 2 ^ 9 ∣ h.clusterSize) (hi : i < l1.length) :
    referred (l1.set i (off ||| l2FlagCopied)) i = some off := by
  obtain ⟨hdvd, hpositive, hle⟩ := hoff
  exact referred_set_self hi (hbits.trans hdvd) (by omega) (by omega)

theorem Tables.withL2Table (hq : Tables h l1 keys q) (hoff : referred (l1.set i (off ||| l2FlagCopied)) i = some off)
    (hnone : referred l1 i = none) :
    Tables h (l1.set i (off ||| l2FlagCopied)) (Insert.insert i keys) (q.withL2Table i off) := by
  refine ⟨⟨hq.bits, ?_, hq.aligned, hq.positive, fun j entry hlookup => ?_⟩, hq.clusterBits, ?_, ?_⟩
  · exact (List.length_set).le.trans hq.l1Length
  · change referred (q.l1Table.set i (off ||| l2FlagCopied)) j = _
    rw [hq.l1Table]
    by_cases hij : j = i
    · subst hij
      rw [withL2Table_lookup_self] at hlookup
      cases hlookup
      exact hoff
    · rw [withL2Table_lookup_ne hij] at hlookup
      rw [referred_set_ne hij]
      exact hq.referred_of_lookup hlookup
  · exact congrArg (fun l1 => l1.set i (off ||| l2FlagCopied)) hq.l1Table
  · exact (tablesOf_insert _ _ _).trans (congrArg _ hq.keys)

theorem wp_newL2Table_tables (hlimit : host.limit ≤ 2 ^ 54) (hq : Tables h l1 keys q) (hi : i < l1.length)
    (hnone : referred l1 i = none) :
    (newL2Table host i).Wp (fun _ q' => HasReached h l1 keys i q') (fun _ q' => Tables h l1 keys q') q := by
  have hlength := hq.l1Length
  rw [hq.l1Table] at hlength
  have hnew : i ∉ keys := by
    intro hmem
    obtain ⟨off, hoff⟩ := hq.referred_of_mem hmem
    rw [hnone] at hoff
    cases hoff
  unfold newL2Table
  rw [Nat.mod_eq_of_lt (hi.trans_le hlength)]
  apply Wp.seq (keeps_allocCluster q hq)
  rintro off q' ⟨hq', hoff⟩
  have hoff' := hoff.referred_set hlimit (hq'.clusterSize ▸ hq'.bits) hi
  apply wp_modifyGet
  exact ⟨_, _, hq'.withL2Table hoff' hnone, .create hi hnone hnew hoff'⟩

theorem keeps_updateL2Entry (i l2Index value : Nat) :
    (updateL2Entry i l2Index value).Keeps (Tables (B := B) h l1 keys) fun _ => True := by
  intro q hq
  apply wp_get_bind
  cases hlookup : q.l2Cache.lookup i with
  | none => exact hq
  | some entry =>
    have hi : i ∈ keys := hq.mem_iff.mpr ⟨entry, hlookup⟩
    have hentry := hq.referred_of_lookup hlookup
    apply Wp.bind
    refine wp_orFail rfl ?_
    split
    · exact ⟨hq.reinsert q.accessCounter hi hentry, trivial⟩
    · exact hq

theorem wp_setL2Entry_tables (hlimit : host.limit ≤ 2 ^ 54) (hq : Tables h l1 keys q) (pos value : Nat) :
    (setL2Entry host pos value).Wp (fun _ q' => HasReached h l1 keys (l1IndexOf h pos) q')
      (fun _ q' => HasBroken h l1 keys (l1IndexOf h pos) q') q := by
  have hlength := hq.l1Length
  rw [hq.l1Table] at hlength
  unfold setL2Entry
  apply wp_get_bind
  dsimp only
  rw [hq.l1IndexOf, hq.l1Table]
  cases he : l1[l1IndexOf h pos]? with
  | none => exact wp_throw hq.hasBroken
  | some e =>
    have hindex : l1IndexOf h pos < l1.length := (List.getElem?_eq_some_iff.mp he).1
    rw [Nat.mod_eq_of_lt (hindex.trans_le hlength)]
    apply Wp.bind
    refine wp_orFail rfl ?_
    refine Wp.seq (Q := fun _ q' => HasReached h l1 keys (l1IndexOf h pos) q') ?_ ?_
    · unfold ensureL2Table
      split
      · rename_i hzero
        exact (wp_newL2Table_tables hlimit hq hindex (referred_eq_none he hzero)).mono (fun _ _ hq' => hq')
          fun _ _ hq' => hq'.hasBroken
      · rename_i hne
        have hoff := referred_eq_some he hne
        rw [Nat.mod_eq_of_lt (hindex.trans_le hlength)]
        exact (wp_ensureL2Cached_tables hq hoff).mono (fun _ _ ⟨keys', hq', haccess⟩ => ⟨l1, keys', hq', .access hoff haccess⟩)
          fun _ _ ⟨keys', hsubset, hq'⟩ => ⟨l1, keys', hq', .of_subset hsubset⟩
    · rintro _ q' ⟨l1', keys', hq', hreached⟩
      exact Wp.mono (keeps_updateL2Entry _ _ _ q' hq') (fun _ _ hq'' => ⟨l1', keys', hq''.1, hreached⟩)
        fun _ _ hq'' => ⟨l1', keys', hq'', hreached.broken⟩

end Access

section Write

variable [Backing B]

theorem wp_clusterForWrite_tables (hlimit : host.limit ≤ 2 ^ 54) (hq : Tables h l1 keys q) (clusterBits pos len : Nat) :
    (clusterForWrite host clusterBits pos len).Wp (fun _ q' => HasReached h l1 keys (l1IndexOf h pos) q')
      (fun _ q' => HasBroken h l1 keys (l1IndexOf h pos) q') q := by
  -- what comes after the translation of the address, wherever that leads
  have hassign : ∀ q₁ l1₁ keys₁, Tables h l1₁ keys₁ q₁ → (do
      let newOffset ← allocCluster host
      fillCluster host clusterBits pos len newOffset
      setL2Entry host pos (newOffset ||| l2FlagCopied)
      return newOffset : Io B Nat).Wp (fun _ q' => HasReached h l1₁ keys₁ (l1IndexOf h pos) q')
        (fun _ q' => HasBroken h l1₁ keys₁ (l1IndexOf h pos) q') q₁ := by
    intro q₁ l1₁ keys₁ hq₁
    apply Wp.seq (Wp.mono (keeps_allocCluster q₁ hq₁) (fun _ _ hq' => hq') fun _ _ hq' => hq'.hasBroken)
    rintro newOffset q₂ ⟨hq₂, -⟩
    apply Wp.seq (Wp.mono (keeps_fillCluster _ _ _ _ q₂ hq₂) (fun _ _ hq' => hq') fun _ _ hq' => hq'.hasBroken)
    rintro _ q₃ ⟨hq₃, -⟩
    apply Wp.seq (wp_setL2Entry_tables hlimit hq₃ pos _)
    exact fun _ _ hq' => wp_pure hq'
  unfold clusterForWrite
  apply Wp.seq ((wp_translateCluster_tables hq pos).mono (fun _ _ hq' => hq') fun _ _ hq' => hq'.hasBroken)
  rintro r q₁ (haccessed | ⟨rfl, hq₁⟩)
  · obtain ⟨l1₁, keys₁, hq₁, hreached⟩ := haccessed.hasReached
    cases r with
    | some hostOff => exact wp_pure ⟨l1₁, keys₁, hq₁, hreached⟩
    | none =>
      apply (hassign q₁ l1₁ keys₁ hq₁).mono
      · rintro _ q₂ ⟨l1₂, keys₂, hq₂, hagain⟩
        obtain ⟨rfl, rfl⟩ := hreached.again hagain
        exact ⟨_, _, hq₂, hreached⟩
      · rintro _ q₂ ⟨l1₂, keys₂, hq₂, hbroken⟩
        exact ⟨l1₂, keys₂, hq₂, hbroken.after hreached⟩
  · exact hassign q₁ l1 keys hq₁

theorem wp_writeChunk_tables (hlimit : host.limit ≤ 2 ^ 54) (hq : Tables h l1 keys q) (clusterBits pos : Nat)
    (chunk : Bytes) :
    (writeChunk host clusterBits pos chunk).Wp (fun _ q' => HasReached h l1 keys (l1IndexOf h pos) q')
      (fun _ q' => HasBroken h l1 keys (l1IndexOf h pos) q') q := by
  unfold writeChunk
  apply Wp.seq (wp_clusterForWrite_tables hlimit hq clusterBits pos chunk.length)
  rintro _ q' ⟨l1', keys', hq', hreached⟩
  exact Wp.mono (keeps_writeAll _ _ q' hq') (fun _ _ hq'' => ⟨l1', keys', hq''.1, hreached⟩)
    fun _ _ hq'' => ⟨l1', keys', hq'', hreached.broken⟩

end Write

def RoomUpTo (l1 : List Nat) (keys : Finset Nat) (first next : Nat) : Prop :=
  ∀ i, first ≤ i → i < next → i < l1.length → referred l1 i = none →
    (keys ∪ Finset.Ico first i).card < l2CacheMaxTables

theorem RoomUpTo.mono {first next next' : Nat} (hroom : RoomUpTo l1 keys first next) (hle : next' ≤ next) :
    RoomUpTo l1 keys first next' := fun i hfirst hnext => hroom i hfirst (hnext.trans_le hle)

theorem roomUpTo_succ {first : Nat} (hfirst : first ≤ i) : RoomUpTo l1 keys first (i + 1) ↔ RoomUpTo l1 keys first i ∧
    (i < l1.length → referred l1 i = none → (keys ∪ Finset.Ico first i).card < l2CacheMaxTables) := by
  constructor
  · exact fun hroom => ⟨hroom.mono (Nat.le_succ i), hroom i hfirst (Nat.lt_succ_self i)⟩
  · rintro ⟨hroom, hlast⟩ j hj hnext
    rcases Nat.lt_succ_iff_lt_or_eq.mp hnext with hlt | rfl
    · exact hroom j hj hlt
    · exact hlast

/-- The tables from `first` up to `next` have been needed since there were the first level `l1₀` and the
cached tables `keys₀`. -/
structure Filling (l1₀ : List Nat) (keys₀ : Finset Nat) (first next : Nat) (l1 : List Nat) (keys : Finset Nat) :
    Prop where
  remembers : Remembers l2CacheMaxTables (keys₀ ∪ Finset.Ico first next) keys
  length : l1.length = l1₀.length
  above : ∀ i, next ≤ i → referred l1 i = referred l1₀ i
  below : ∀ i, first ≤ i → i < next → ∃ off, referred l1 i = some off
  card_le_iff : keys.card ≤ l2CacheMaxTables ↔ RoomUpTo l1₀ keys₀ first next

namespace Filling

variable {l1₀ l1' : List Nat} {keys₀ keys' : Finset Nat} {first next : Nat}

theorem start (first : Nat) (hbound : keys.card ≤ l2CacheMaxTables) : Filling l1 keys first first l1 keys where
  remembers := by
    rw [Finset.Ico_self, Finset.union_empty]
    exact .refl _ _
  length := rfl
  above _ _ := rfl
  below i hlo hhi := absurd hhi hlo.not_gt
  card_le_iff := iff_of_true hbound fun i hlo hhi => absurd hhi hlo.not_gt

theorem touched_succ (hfirst : first ≤ i) :
    insert i (keys₀ ∪ Finset.Ico first i) = keys₀ ∪ Finset.Ico first (i + 1) := by
  rw [← Finset.union_insert, ← Nat.Ico_succ_right_eq_insert_Ico hfirst]

theorem step (hfill : Filling l1₀ keys₀ first i l1 keys) (hfirst : first ≤ i) (h : Reached l1 keys i l1' keys') :
    Filling l1₀ keys₀ first (i + 1) l1' keys' := by
  have habove := hfill.above i (Nat.le_refl i)
  cases h with
  | access hoff haccess =>
    refine ⟨touched_succ hfirst ▸ hfill.remembers.access haccess, hfill.length,
      fun j hj => hfill.above j (Nat.le_of_succ_le hj), fun j hlo hhi => ?_, ?_⟩
    · rcases Nat.lt_succ_iff_lt_or_eq.mp hhi with hlt | rfl
      · exact hfill.below j hlo hlt
      · exact ⟨_, hoff⟩
    · rw [haccess.card_le_iff, hfill.card_le_iff, roomUpTo_succ hfirst]
      refine ⟨fun hroom => ⟨hroom, fun _ hnone => ?_⟩, fun hroom => hroom.1⟩
      rw [← habove, hoff] at hnone
      cases hnone
  | create hi hnone hnew hoff =>
    refine ⟨touched_succ hfirst ▸ hfill.remembers.insert i, List.length_set.trans hfill.length, fun j hj => ?_,
      fun j hlo hhi => ?_, ?_⟩
    · rw [referred_set_ne (Nat.ne_of_gt hj)]
      exact hfill.above j (Nat.le_of_succ_le hj)
    · by_cases hij : j = i
      · rw [hij]
        exact ⟨_, hoff⟩
      · rw [referred_set_ne hij]
        exact hfill.below j hlo (by omega)
    · have hroom := hfill.remembers.card_lt_iff
      have hbound := hfill.card_le_iff
      rw [Finset.card_insert_of_notMem hnew, roomUpTo_succ hfirst, ← hbound, Nat.succ_le_iff, hroom]
      constructor
      · exact fun hlt => ⟨(hroom.mpr hlt).le, fun _ _ => hlt⟩
      · exact fun hboth => hboth.2 (hfill.length ▸ hi) (habove ▸ hnone)

theorem again (hfill : Filling l1₀ keys₀ first (i + 1) l1 keys) (hfirst : first ≤ i) (h : Reached l1 keys i l1' keys') :
    Filling l1₀ keys₀ first (i + 1) l1' keys' := by
  obtain ⟨off, hoff⟩ := hfill.below i hfirst (Nat.lt_succ_self i)
  cases h with
  | access _ haccess =>
    have hremembers := hfill.remembers.access haccess
    have hmem : i ∈ keys₀ ∪ Finset.Ico first (i + 1) :=
      Finset.mem_union_right _ (Finset.mem_Ico.mpr ⟨hfirst, Nat.lt_succ_self i⟩)
    rw [Finset.insert_eq_of_mem hmem] at hremembers
    exact ⟨hremembers, hfill.length, hfill.above, hfill.below, haccess.card_le_iff.trans hfill.card_le_iff⟩
  | create _ hnone =>
    rw [hoff] at hnone
    cases hnone

theorem reached (hfill : Filling l1₀ keys₀ first next l1 keys) (hfirst : first ≤ i) (hi : i = next ∨ i + 1 = next)
    (h : Reached l1 keys i l1' keys') : Filling l1₀ keys₀ first (i + 1) l1' keys' := by
  rcases hi with rfl | rfl
  · exact hfill.step hfirst h
  · exact hfill.again hfirst h

theorem card_le_of_broken (hfill : Filling l1₀ keys₀ first next l1 keys) (hfirst : first ≤ i)
    (hi : i = next ∨ i + 1 = next) (h : Broken l1 keys i l1' keys') (hroom : RoomUpTo l1₀ keys₀ first (i + 1)) :
    keys'.card ≤ l2CacheMaxTables := by
  obtain ⟨keys₁, hsubset, ⟨-, rfl⟩ | hreached⟩ := h
  · exact (Finset.card_le_card hsubset).trans (hfill.card_le_iff.mpr (hroom.mono (by omega)))
  · exact (Finset.card_le_card hsubset).trans ((hfill.reached hfirst hi hreached).card_le_iff.mpr hroom)

end Filling

section Chunks

variable {pos len : Nat}

theorem l1IndexOf_mono (h : Qcow2Header) {pos pos' : Nat} (hle : pos ≤ pos') : l1IndexOf h pos ≤ l1IndexOf h pos' :=
  Nat.div_le_div_right (Nat.div_le_div_right hle)

theorem l1IndexOf_last (h : Qcow2Header) (hlen : 0 < len) (hchunk : chunkLen h.clusterBits pos len = len) :
    l1IndexOf h (pos + len - 1) = l1IndexOf h pos := by
  have hfits := chunkLen_fits h.clusterBits pos len
  have hsplit := Nat.div_add_mod pos (2 ^ h.clusterBits)
  have hdiv : (pos + len - 1) / 2 ^ h.clusterBits = pos / 2 ^ h.clusterBits := by
    rw [Nat.div_eq_iff (Nat.two_pow_pos _)]
    rw [hchunk] at hfits
    rw [Nat.mul_comm] at hsplit
    omega
  simp only [l1IndexOf, Qcow2Header.clusterSize, hdiv]

theorem l1IndexOf_next (h : Qcow2Header) (hchunk : chunkLen h.clusterBits pos len < len) :
    l1IndexOf h (pos + chunkLen h.clusterBits pos len) = l1IndexOf h pos ∨
      l1IndexOf h (pos + chunkLen h.clusterBits pos len) = l1IndexOf h pos + 1 := by
  have hlt := Nat.mod_lt pos (Nat.two_pow_pos h.clusterBits)
  have hsplit := Nat.div_add_mod pos (2 ^ h.clusterBits)
  have hend : pos + chunkLen h.clusterBits pos len = 2 ^ h.clusterBits * (pos / 2 ^ h.clusterBits + 1) := by
    rw [Nat.mul_succ]
    unfold chunkLen at hchunk ⊢
    omega
  have hdiv : (pos + chunkLen h.clusterBits pos len) / 2 ^ h.clusterBits = pos / 2 ^ h.clusterBits + 1 := by
    rw [hend, Nat.mul_div_cancel_left _ (Nat.two_pow_pos _)]
  simp only [l1IndexOf, Qcow2Header.clusterSize, hdiv, Nat.succ_div]
  split
  · exact .inr rfl
  · exact .inl rfl

end Chunks

section WriteLoop

variable [Backing B] {l1₀ : List Nat} {keys₀ : Finset Nat} {first next : Nat}

theorem wp_writeLoop_tables (hlimit : host.limit ≤ 2 ^ 54) (hq : Tables h l1 keys q)
    (hfill : Filling l1₀ keys₀ first next l1 keys) {pos : Nat} {data : Bytes} (hdata : 0 < data.length)
    (hfirst : first ≤ l1IndexOf h pos) (hpos : l1IndexOf h pos = next ∨ l1IndexOf h pos + 1 = next) :
    (writeLoop host h.clusterBits pos data).Wp
      (fun _ q' => ∃ l1' keys', Tables h l1' keys' q' ∧ (keys'.card ≤ l2CacheMaxTables ↔
        RoomUpTo l1₀ keys₀ first (l1IndexOf h (pos + data.length - 1) + 1)))
      (fun _ q' => ∃ l1' keys', Tables h l1' keys' q' ∧
        (RoomUpTo l1₀ keys₀ first (l1IndexOf h (pos + data.length - 1) + 1) → keys'.card ≤ l2CacheMaxTables)) q := by
  -- on what is left to write: each pass needs the table of the last one, or the one behind it
  induction hlen : data.length using Nat.strong_induction_on generalizing l1 keys next pos data q with
  | h remaining ih =>
    subst hlen
    have hchunk := chunkLen_pos h.clusterBits pos data.length hdata
    have hle := chunkLen_le h.clusterBits pos data.length
    have hmono : l1IndexOf h pos + 1 ≤ l1IndexOf h (pos + data.length - 1) + 1 :=
      Nat.succ_le_succ (l1IndexOf_mono h (by omega))
    unfold writeLoop
    rw [dif_pos hdata]
    apply Wp.seq ((wp_writeChunk_tables hlimit hq h.clusterBits pos _).mono (fun _ _ hq' => hq') ?_)
    · rintro _ q' ⟨l1', keys', hq', hreached⟩
      have hfill' := hfill.reached hfirst hpos hreached
      by_cases hrest : chunkLen h.clusterBits pos data.length < data.length
      · have hdrop : (data.drop (chunkLen h.clusterBits pos data.length)).length =
            data.length - chunkLen h.clusterBits pos data.length := List.length_drop
        have hnext := l1IndexOf_next h hrest
        have hlast : pos + chunkLen h.clusterBits pos data.length
            + (data.drop (chunkLen h.clusterBits pos data.length)).length - 1 = pos + data.length - 1 := by omega
        have hdata' : 0 < (data.drop (chunkLen h.clusterBits pos data.length)).length := by omega
        have hfirst' : first ≤ l1IndexOf h (pos + chunkLen h.clusterBits pos data.length) := by omega
        have hloop := ih _ (by omega) hq' hfill' hdata' hfirst' (by omega) rfl
        rwa [hlast] at hloop
      · have hall : chunkLen h.clusterBits pos data.length = data.length := by omega
        have hnil : ¬ 0 < (data.drop (chunkLen h.clusterBits pos data.length)).length := by
          rw [List.length_drop]
          omega
        unfold writeLoop
        rw [dif_neg hnil, l1IndexOf_last h hdata hall]
        exact wp_pure ⟨l1', keys', hq', hfill'.card_le_iff⟩
    · rintro _ q' ⟨l1', keys', hq', hbroken⟩
      exact ⟨l1', keys', hq', fun hroom => hfill.card_le_of_broken hfirst hpos hbroken (hroom.mono hmono)⟩

end WriteLoop

end Qcow2File

open Qcow2File

def Op.HasRoom {B : Type} (q : Qcow2File B) : Op → Prop
  | .writeAt offset data => 0 < data.length → offset + data.length ≤ q.header.size →
      RoomUpTo q.l1Table (tablesOf q.l2Cache) (l1IndexOf q.header offset)
        (l1IndexOf q.header (offset + data.length - 1) + 1)
  | .readAt _ _ => True
  | .flush => True

theorem Op.hasRoom_of_lt {B : Type} {q : Qcow2File B} {offset : Nat} {data : Bytes}
    (hlt : q.l2Cache.keys.length + (l1IndexOf q.header (offset + data.length - 1)
      - l1IndexOf q.header offset) < l2CacheMaxTables) : (Op.writeAt offset data).HasRoom q := by
  intro _ _ i hfirst hnext _ _
  have hcard := Finset.card_union_le (tablesOf q.l2Cache) (Finset.Ico (l1IndexOf q.header offset) i)
  rw [card_tablesOf, Nat.card_Ico] at hcard
  omega

namespace Qcow2File

variable {B : Type} {host : Host} {q q' : Qcow2File B}

def Bounded (q : Qcow2File B) : Prop := q.l2Cache.keys.length ≤ l2CacheMaxTables

theorem Tables.bounded_iff {h : Qcow2Header} {l1 : List Nat} {keys : Finset Nat} (hq : Tables h l1 keys q) :
    q.Bounded ↔ keys.card ≤ l2CacheMaxTables := by
  rw [Bounded, ← card_tablesOf, hq.keys]

theorem Tables.within {h : Qcow2Header} {l1 : List Nat} {keys keys' : Finset Nat} {P : Prop} (hq' : Tables h l1 keys' q')
    (hcard : P → keys.card ≤ l2CacheMaxTables) (hle : keys.card ≤ l2CacheMaxTables → keys'.card ≤ l2CacheMaxTables) :
    Located q' ∧ (P → q'.Bounded) :=
  ⟨hq'.toLocated, fun hP => hq'.bounded_iff.mpr (hle (hcard hP))⟩

theorem keeps_flush_within (P : Prop) :
    (flush host).Keeps (fun q : Qcow2File B => Located q ∧ (P → q.Bounded)) fun _ => True := by
  rintro q ⟨hq, hbound⟩
  have hcard := fun hP => hq.tables.bounded_iff.mp (hbound hP)
  exact (keeps_flush q hq.tables).imp fun _ hq' => hq'.within hcard id

theorem keeps_translateCluster_within (P : Prop) (pos : Nat) :
    (translateCluster host pos).Keeps (fun q : Qcow2File B => Located q ∧ (P → q.Bounded)) fun _ => True := by
  rintro q ⟨hq, hbound⟩
  have hcard := fun hP => hq.tables.bounded_iff.mp (hbound hP)
  have haccessed : ∀ q' : Qcow2File B, HasAccessed q.header q.l1Table (tablesOf q.l2Cache) (l1IndexOf q.header pos) q' →
      Located q' ∧ (P → q'.Bounded) := by
    rintro q' ⟨off, keys', -, hq', haccess⟩
    exact hq'.within hcard haccess.card_le_iff.mpr
  apply (wp_translateCluster_tables hq.tables pos).mono
  · rintro _ q' (hq' | ⟨-, hq'⟩)
    · exact ⟨haccessed q' hq', trivial⟩
    · exact ⟨hq'.within hcard id, trivial⟩
  · rintro _ q' (⟨keys', hsubset, hq'⟩ | hq')
    · exact hq'.within hcard (Finset.card_le_card hsubset).trans
    · exact haccessed q' hq'

section Ops

variable [Backing B]

theorem keeps_readAt_within (P : Prop) (offset n : Nat) :
    (readAt host offset n).Keeps (fun q : Qcow2File B => Located q ∧ (P → q.Bounded)) fun _ => True := by
  refine keeps_readAt (keeps_translateCluster_within P) (fun offset n => ?_) offset n
  rintro q ⟨hq, hbound⟩
  have hcard := fun hP => hq.tables.bounded_iff.mp (hbound hP)
  exact (keeps_readBacking offset n q hq.tables).imp fun _ hq' => hq'.within hcard id

theorem keeps_writeAt_located (hlimit : host.limit ≤ 2 ^ 54) (offset : Nat) (data : Bytes) :
    (writeAt host offset data).Keeps (Located (B := B)) fun _ => True := by
  refine keeps_writeAt (fun clusterBits pos chunk q hq => ?_) offset data
  apply (wp_writeChunk_tables hlimit hq.tables clusterBits pos chunk).mono
  · rintro _ q' ⟨l1', keys', hq', -⟩
    exact ⟨hq'.toLocated, trivial⟩
  · rintro _ q' ⟨l1', keys', hq', -⟩
    exact hq'.toLocated

theorem wp_writeAt_within (hlimit : host.limit ≤ 2 ^ 54) (hq : Located q) (hbound : q.Bounded) (offset : Nat)
    (data : Bytes) :
    (writeAt host offset data).Wp (fun _ q' => q'.Bounded ↔ (Op.writeAt offset data).HasRoom q)
      (fun _ q' => (Op.writeAt offset data).HasRoom q → q'.Bounded) q := by
  unfold writeAt
  apply wp_get_bind
  dsimp only
  split
  · exact wp_throw fun _ => hbound
  · split
    · rename_i hend
      by_cases hdata : 0 < data.length
      · have hstart : Filling q.l1Table (tablesOf q.l2Cache) (l1IndexOf q.header offset) (l1IndexOf q.header offset)
            q.l1Table (tablesOf q.l2Cache) := .start _ (hq.tables.bounded_iff.mp hbound)
        apply (wp_writeLoop_tables hlimit hq.tables hstart hdata (Nat.le_refl _) (.inl rfl)).mono
        · rintro _ q' ⟨l1', keys', hq', hiff⟩
          refine hq'.bounded_iff.trans (hiff.trans ?_)
          exact ⟨fun hroom _ _ => hroom, fun hroom => hroom hdata hend⟩
        · rintro _ q' ⟨l1', keys', hq', himp⟩
          exact fun hroom => hq'.bounded_iff.mpr (himp (hroom hdata hend))
      · unfold writeLoop
        rw [dif_neg hdata]
        exact wp_pure (iff_of_true hbound fun hpos => absurd hpos hdata)
    · exact wp_throw fun _ => hbound

theorem Located.apply (hlimit : host.limit ≤ 2 ^ 54) (hq : Located q) (op : Op) : Located (op.apply host q) := by
  cases op with
  | readAt offset n => exact (keeps_readAt_within False offset n q ⟨hq, False.elim⟩).state.1
  | writeAt offset data => exact (keeps_writeAt_located hlimit offset data q hq).state
  | flush => exact (keeps_flush_within False q ⟨hq, False.elim⟩).state.1

theorem Bounded.apply (hlimit : host.limit ≤ 2 ^ 54) (hq : Located q) (hbound : q.Bounded) {op : Op}
    (hop : op.HasRoom q) : (op.apply host q).Bounded := by
  cases op with
  | readAt offset n => exact (keeps_readAt_within True offset n q ⟨hq, fun _ => hbound⟩).state.2 trivial
  | writeAt offset data =>
    have hends : (writeAt host offset data).Ends Bounded (fun _ => True) q :=
      (wp_writeAt_within hlimit hq hbound offset data).mono (fun _ _ hiff => ⟨hiff.mpr hop, trivial⟩)
        fun _ _ himp => himp hop
    exact hends.state
  | flush => exact (keeps_flush_within True q ⟨hq, fun _ => hbound⟩).state.2 trivial

end Ops

end Qcow2File

end CloneVmm.Storage
