import CloneVmm.Storage.Allocation
import CloneVmm.Storage.Stable
import Mathlib.Algebra.Order.Floor.Div

namespace CloneVmm.Storage

open CloneVmm.Lib CloneVmm.Lib.Prog

def clustersTouched (clusterSize pos len : Nat) : Nat :=
  if len = 0 then 0 else (pos % clusterSize + len) ⌈/⌉ clusterSize

/-- Each cluster written may need one for its data and one for a table of the second level, and each of
the two a block of reference counts. -/
def writeRoom (clusterSize pos len : Nat) : Nat := clustersTouched clusterSize pos len * 4 * clusterSize

def countClusters (clusterSize len : Nat) : Nat :=
  (len / (Qcow2File.refcountsPerBlock clusterSize * clusterSize) + 1) * 8 ⌈/⌉ clusterSize

/-- A flush may move the table of reference counts, and each cluster of it may need a block of them. -/
def flushRoom (clusterSize len : Nat) : Nat := countClusters clusterSize len * 2 * clusterSize

theorem flushRoom_mono (clusterSize : Nat) {len len' : Nat} (h : len ≤ len') :
    flushRoom clusterSize len ≤ flushRoom clusterSize len' := by
  have hdiv := Nat.div_le_div_right h (c := Qcow2File.refcountsPerBlock clusterSize * clusterSize)
  unfold flushRoom countClusters
  rw [Nat.ceilDiv_eq_add_pred_div, Nat.ceilDiv_eq_add_pred_div]
  exact Nat.mul_le_mul_right _ (Nat.mul_le_mul_right _ (Nat.div_le_div_right (by omega)))

namespace Qcow2File

variable {B α β : Type} {host : Host} {q q' : Qcow2File B} {header : Qcow2Header} {low high high' a b : Nat}

/-- The image allocates between `low` and `high`, and its table of reference counts is as long as its
place in the file or counts nothing behind. -/
structure Within (header : Qcow2Header) (low high : Nat) (q : Qcow2File B) : Prop where
  same : q.header = header
  low : low ≤ q.nextAllocOffset
  high : q.nextAllocOffset ≤ high
  table : q.refcountTable.length * 8 ≤ header.refcountTableClusters * header.clusterSize ∨
    (q.refcountTable.length - 1) * span header ≤ q.nextAllocOffset

namespace Within

theorem congr (h : Within header low high q) (hheader : q'.header = q.header)
    (hnext : q'.nextAllocOffset = q.nextAllocOffset) (htable : q'.refcountTable = q.refcountTable) :
    Within header low high q' := by
  refine ⟨hheader.trans h.same, by rw [hnext]; exact h.low, by rw [hnext]; exact h.high, ?_⟩
  rw [hnext, htable]
  exact h.table

theorem mono (h : Within header low high q) (hle : high ≤ high') : Within header low high' q :=
  ⟨h.same, h.low, h.high.trans hle, h.table⟩

theorem lower {low' : Nat} (h : Within header low' high q) (hle : low ≤ low') : Within header low high q :=
  ⟨h.same, hle.trans h.low, h.high, h.table⟩

theorem bump (h : Within header low high q) {n : Nat} (hlow : q.nextAllocOffset ≤ n) (hhigh : n ≤ high') :
    Within header n high' { q with nextAllocOffset := n } :=
  ⟨h.same, Nat.le_refl _, hhigh, h.table.imp_right fun hspan => hspan.trans hlow⟩

end Within

def Costs (a : Nat) (m : Io B α) : Prop :=
  ∀ header low high q, Within header low high q → m.Ends (Within header low (high + a * header.clusterSize)) (fun _ => True) q

theorem Costs.bind {m : Io B α} {f : α → Io B β} (hm : Costs a m) (hf : ∀ x, Costs b (f x)) : Costs (a + b) (m >>= f) := by
  intro header low high q h
  have hsum : high + (a + b) * header.clusterSize = high + a * header.clusterSize + b * header.clusterSize := by ring
  rw [hsum]
  refine Wp.seq (Wp.mono (hm header low high q h) (fun _ _ hq => hq) fun _ _ hq => ?_) fun x q' hq' => ?_
  · exact hq.mono (Nat.le_add_right _ _)
  · exact hf x header low _ q' hq'.1

theorem Costs.mono {m : Io B α} (hm : Costs a m) (hle : a ≤ b) : Costs b m := fun header low high q h =>
  (hm header low high q h).imp fun _ hq => hq.mono (Nat.add_le_add_left (Nat.mul_le_mul_right _ hle) _)

theorem Costs.of_keeps {m : Io B α} (h : ∀ header low high, m.Keeps (Within header low high) fun _ => True) : Costs 0 m := by
  intro header low high q hq
  rw [Nat.zero_mul]
  exact h header low high q hq

theorem Costs.ite {c : Prop} [Decidable c] {m m' : Io B α} (h : Costs a m) (h' : Costs a m') : Costs a (if c then m else m') := by
  split
  · exact h
  · exact h'

section Keeps

theorem setLen_within (n : Nat) : (setLen host n : Io B Unit).Keeps (Within header low high) fun _ => True :=
  Keeps.ite (keeps_modifyGet fun _ h => h.congr rfl rfl rfl) keeps_throw

theorem writeAll_within (off : Nat) (bs : Bytes) : (writeAll host off bs : Io B Unit).Keeps
    (Within header low high) fun _ => True :=
  Keeps.ite (keeps_modifyGet fun _ h => h.congr rfl rfl rfl) keeps_throw

theorem flushL2Table_within (i : Nat) : (flushL2Table host i : Io B Unit).Keeps (Within header low high) fun _ => True := by
  refine keeps_get.bind fun q _ => (keeps_orFail _ _).bind fun entry _ => Keeps.ite ?_ (keeps_pure trivial)
  exact (writeAll_within _ _).bind fun _ _ => keeps_modifyGet fun _ h => h.congr rfl rfl rfl

theorem makeRoom_within : (makeRoom host : Io B Unit).Keeps (Within header low high) fun _ => True := by
  refine keeps_get.bind fun q _ => Keeps.ite (keeps_get.bind fun q' _ => ?_) (keeps_pure trivial)
  dsimp only
  cases (host.order q'.l2Cache).argmin (lastAccessOf q'.l2Cache) with
  | none => exact keeps_pure trivial
  | some i => exact (flushL2Table_within i).bind fun _ _ => keeps_modifyGet fun _ h => h.congr rfl rfl rfl

theorem ensureL2Cached_within (i offset : Nat) :
    (ensureL2Cached host i offset : Io B Unit).Keeps (Within header low high) fun _ => True := by
  refine keeps_get.bind fun q _ => ?_
  cases q.l2Cache.lookup i with
  | some entry => exact keeps_modifyGet fun _ h => h.congr rfl rfl rfl
  | none =>
    refine makeRoom_within.bind fun _ _ => keeps_get.bind fun q' _ => ?_
    dsimp only
    cases readTable q'.file offset q'.header.l2EntriesPerTable with
    | error e => exact keeps_throw
    | ok entries => exact keeps_modifyGet fun _ h => h.congr rfl rfl rfl

theorem updateL2Entry_within (i k value : Nat) :
    (updateL2Entry i k value : Io B Unit).Keeps (Within header low high) fun _ => True := by
  refine keeps_get.bind fun q _ => (keeps_orFail _ _).bind fun entry _ => Keeps.ite ?_ keeps_throw
  exact keeps_modifyGet fun _ h => h.congr rfl rfl rfl

theorem flushL2Tables_within (indices : List Nat) :
    (flushL2Tables host indices : Io B Unit).Keeps (Within header low high) fun _ => True := by
  induction indices with
  | nil => exact keeps_pure trivial
  | cons i indices ih => exact (flushL2Table_within i).bind fun _ _ => ih

theorem readBacking_within [Backing B] (offset n : Nat) :
    (readBacking host offset n : Io B Bytes).Keeps (Within header low high) fun _ => True := by
  refine keeps_get.bind fun q _ => ?_
  cases q.backing with
  | none => exact keeps_pure trivial
  | some b =>
    refine Keeps.bind (R := fun _ => True) (keeps_modifyGet fun _ h => h.congr rfl rfl rfl) fun _ _ => ?_
    cases (Backing.readAt host b offset n).1 with
    | error e => exact keeps_throw
    | ok bytes => exact keeps_pure trivial

end Keeps

theorem ends_readAt [Backing B] (host : Host) (h : Within header low high q) (offset n : Nat) :
    (readAt host offset n).Ends (Within header low high) (fun _ => True) q :=
  keeps_readAt (keeps_translateCluster ensureL2Cached_within) readBacking_within offset n q h

theorem costs_allocRefcountBlock (host : Host) (j : Nat) : Costs 1 (allocRefcountBlock host j : Io B Unit) := by
  intro header low high q h
  have hhigh := h.high
  obtain rfl := h.same
  unfold Ends allocRefcountBlock
  rw [Nat.one_mul]
  apply wp_get_bind
  apply wp_get_bind
  apply wp_modifyGet_bind
  have hbump : Within q.header low (high + q.header.clusterSize)
      { q with nextAllocOffset := q.nextAllocOffset + q.header.clusterSize } :=
    (h.bump (Nat.le_add_right _ _) (by omega)).lower (h.low.trans (Nat.le_add_right _ _))
  have hset : ∀ q' : Qcow2File B, Within q.header low (high + q.header.clusterSize) q' →
      Within q.header low (high + q.header.clusterSize)
        { q' with refcountTable := q'.refcountTable.set j q.nextAllocOffset } := by
    rintro q' ⟨hheader, hlow, hhigh, htable⟩
    refine ⟨hheader, hlow, hhigh, ?_⟩
    rwa [List.length_set]
  refine ((setLen_within _).bind fun _ _ => (keeps_modifyGet hset).bind fun _ _ => ?_) _ hbump
  exact Keeps.ite (writeAll_within _ _) (keeps_pure trivial)

theorem ends_setRefcount (h : Within header low high q) {off : Nat} (hoff : off ≤ low) (n : Nat) :
    (setRefcount host off n).Ends (Within header low (high + header.clusterSize)) (fun _ => True) q := by
  obtain rfl := h.same
  have hone : 1 * q.header.clusterSize = q.header.clusterSize := Nat.one_mul _
  have hgrown : Within q.header low high (q.withTable (q.tableIndex off + 1)) := by
    refine ⟨rfl, h.low, h.high, ?_⟩
    rw [withTable_length]
    rcases Nat.le_total (q.tableIndex off + 1) q.refcountTable.length with hle | hle
    · rw [Nat.max_eq_left hle]
      exact h.table
    · right
      rw [Nat.max_eq_right hle, Nat.add_sub_cancel]
      exact (tableIndex_span_le q off).trans (hoff.trans h.low)
  unfold Ends setRefcount
  apply wp_get_bind
  refine Wp.seq (Q := fun _ => Within q.header low (high + q.header.clusterSize)) ?_ fun _ q' hq' => ?_
  · unfold ensureRefcountBlock
    apply wp_modifyGet_bind
    apply wp_get_bind
    change Wp (if (q.withTable (q.tableIndex off + 1)).refcountTable[q.tableIndex off]? = some 0 then _ else _) _ _
      (q.withTable (q.tableIndex off + 1))
    split
    · have halloc := costs_allocRefcountBlock host (q.tableIndex off) _ _ _ _ hgrown
      rw [hone] at halloc
      exact Wp.mono halloc (fun _ _ hq' => hq'.1) fun _ _ hq' => hq'
    · exact wp_pure (hgrown.mono (Nat.le_add_right _ _))
  · exact (keeps_get.bind fun q' _ => (keeps_orFail _ _).bind fun _ _ => writeAll_within _ _) q' hq'

theorem costs_allocCluster : Costs 2 (allocCluster host : Io B Nat) := by
  intro header low high q h
  have hhigh := h.high
  obtain rfl := h.same
  have hnext := Nat.le_add_right q.nextAllocOffset q.header.clusterSize
  have hsum : high + 2 * q.header.clusterSize = high + q.header.clusterSize + q.header.clusterSize := by ring
  unfold Ends allocCluster
  rw [hsum]
  apply wp_get_bind
  apply wp_get_bind
  apply wp_modifyGet_bind
  have hbump : Within q.header _ (high + q.header.clusterSize) _ := h.bump hnext (by omega)
  refine Wp.seq (Wp.mono (setLen_within _ _ hbump) (fun _ _ hq' => hq') fun _ _ hq' => ?_) fun _ q' hq' => ?_
  · exact (hq'.mono (Nat.le_add_right _ _)).lower (h.low.trans hnext)
  · refine Wp.seq (Wp.mono (ends_setRefcount hq'.1 hnext 1) (fun _ _ hq'' => hq'') fun _ _ hq'' => ?_) ?_
    · exact hq''.lower (h.low.trans hnext)
    · exact fun _ q'' hq'' => wp_pure ⟨hq''.1.lower (h.low.trans hnext), trivial⟩

theorem costs_setL2Entry (guestOffset value : Nat) : Costs 2 (setL2Entry host guestOffset value : Io B Unit) := by
  refine Costs.bind (a := 0) (b := 2) (.of_keeps fun _ _ _ => keeps_get) fun q => ?_
  refine Costs.bind (a := 0) (b := 2) (.of_keeps fun _ _ _ => keeps_orFail _ _) fun l1Entry => ?_
  refine Costs.bind (a := 2) (b := 0) (Costs.ite ?_ ?_) fun _ => .of_keeps fun _ _ _ => updateL2Entry_within _ _ _
  · refine Costs.bind (b := 0) costs_allocCluster fun off => .of_keeps fun _ _ _ => ?_
    exact keeps_modifyGet fun _ h => h.congr rfl rfl rfl
  · exact Costs.mono (.of_keeps fun _ _ _ => ensureL2Cached_within _ _) (Nat.zero_le 2)

section Access

variable [Backing B]

theorem costs_writeChunk (clusterBits pos : Nat) (chunk : Bytes) :
    Costs 4 (writeChunk host clusterBits pos chunk : Io B Unit) := by
  refine Costs.bind (a := 4) (b := 0) ?_ fun off => .of_keeps fun _ _ _ => writeAll_within _ _
  refine Costs.bind (a := 0) (b := 4) (.of_keeps fun _ _ _ => keeps_translateCluster ensureL2Cached_within pos)
    fun hostOffset => ?_
  cases hostOffset with
  | some off => exact Costs.mono (.of_keeps fun _ _ _ => keeps_pure trivial) (Nat.zero_le 4)
  | none =>
    refine Costs.bind (a := 2) (b := 2) costs_allocCluster fun newOffset => ?_
    refine Costs.bind (a := 0) (b := 2) (.of_keeps fun _ _ _ => ?_) fun _ => ?_
    · exact Keeps.ite ((readBacking_within _ _).bind fun _ _ => writeAll_within _ _) (keeps_pure trivial)
    · exact Costs.bind (b := 0) (costs_setL2Entry _ _) fun _ => .of_keeps fun _ _ _ => keeps_pure trivial

theorem clustersTouched_succ (bits pos : Nat) {len : Nat} (hlen : 0 < len) :
    clustersTouched (2 ^ bits) (pos + chunkLen bits pos len) (len - chunkLen bits pos len) + 1 ≤
      clustersTouched (2 ^ bits) pos len := by
  have hcs := Nat.two_pow_pos bits
  have hmod := Nat.mod_lt pos hcs
  rw [clustersTouched, clustersTouched, if_neg (by omega : len ≠ 0)]
  split
  · rw [Nat.zero_add, Nat.ceilDiv_eq_add_pred_div, Nat.le_div_iff_mul_le hcs]
    omega
  · rename_i hmore
    have hchunk : chunkLen bits pos len = 2 ^ bits - pos % 2 ^ bits := by
      unfold chunkLen at hmore ⊢
      omega
    have hnext : (pos + chunkLen bits pos len) % 2 ^ bits = 0 := by
      have hsplit := Nat.div_add_mod' pos (2 ^ bits)
      have hpos : pos + chunkLen bits pos len = (pos / 2 ^ bits + 1) * 2 ^ bits := by
        rw [Nat.add_one_mul]
        omega
      rw [hpos, Nat.mul_mod_left]
    rw [hnext, Nat.ceilDiv_eq_add_pred_div, Nat.ceilDiv_eq_add_pred_div, ← Nat.add_div_right _ hcs]
    exact Nat.div_le_div_right (by omega)

theorem ends_writeLoop (host : Host) (h : Within header low high q) (pos : Nat) (data : Bytes) :
    (writeLoop host header.clusterBits pos data).Ends
      (Within header low (high + writeRoom header.clusterSize pos data.length)) (fun _ => True) q := by
  -- on what is left to write: each pass fills up a cluster
  induction hlen : data.length using Nat.strong_induction_on generalizing pos data high q with
  | h remaining ih =>
    subst hlen
    unfold writeLoop
    split
    · rename_i hpos
      have hsmaller := chunkLen_pos header.clusterBits pos data.length hpos
      have hless := clustersTouched_succ header.clusterBits pos hpos
      have hroom : high + 4 * header.clusterSize + writeRoom header.clusterSize
          (pos + chunkLen header.clusterBits pos data.length) (data.length - chunkLen header.clusterBits pos data.length) ≤
            high + writeRoom header.clusterSize pos data.length := by
        have hmul := Nat.mul_le_mul_right (4 * header.clusterSize) hless
        rw [Nat.add_one_mul, ← Nat.mul_assoc, ← Nat.mul_assoc] at hmul
        change _ ≤ high + clustersTouched (2 ^ header.clusterBits) pos data.length * 4 * header.clusterSize
        change _ + clustersTouched (2 ^ header.clusterBits) _ _ * 4 * header.clusterSize ≤ _
        omega
      refine Wp.seq (Wp.mono (costs_writeChunk _ _ _ _ _ _ _ h) (fun _ _ hq' => hq') fun _ _ hq' => ?_) ?_
      · exact hq'.mono (by omega)
      · intro _ q' hq'
        exact (ih _ (by omega) hq'.1 _ _ List.length_drop).imp fun _ hq'' => hq''.mono hroom
    · exact wp_pure ⟨h.mono (Nat.le_add_right _ _), trivial⟩

theorem ends_writeAt (host : Host) (h : Within header low high q) (offset : Nat) (data : Bytes) :
    (writeAt host offset data).Ends (Within header low (high + writeRoom header.clusterSize offset data.length))
      (fun _ => True) q := by
  have hsame := h.mono (Nat.le_add_right high (writeRoom header.clusterSize offset data.length))
  unfold Ends writeAt
  apply wp_get_bind
  dsimp only
  rw [h.same]
  split
  · exact wp_throw hsame
  · split
    · exact ends_writeLoop host h offset data
    · exact wp_throw hsame

end Access

theorem ends_setRefcounts (host : Host) (h : Within header low high q) {offsets : List Nat}
    (hoffsets : ∀ off ∈ offsets, off ≤ low) :
    (setRefcounts host offsets).Ends (Within header low (high + offsets.length * header.clusterSize)) (fun _ => True) q := by
  induction offsets generalizing high q with
  | nil => exact wp_pure ⟨h.mono (Nat.le_add_right _ _), trivial⟩
  | cons off offsets ih =>
    have hsum : high + (off :: offsets).length * header.clusterSize =
        high + header.clusterSize + offsets.length * header.clusterSize := by
      rw [List.length_cons]
      ring
    rw [hsum]
    refine Wp.seq (Wp.mono (ends_setRefcount h (hoffsets off List.mem_cons_self) 1) (fun _ _ hq' => hq') ?_) ?_
    · exact fun _ _ hq' => hq'.mono (Nat.le_add_right _ _)
    · exact fun _ q' hq' => ih hq'.1 fun off' hoff' => hoffsets off' (List.mem_cons_of_mem off hoff')

def Moved (header : Qcow2Header) (low high : Nat) (q : Qcow2File B) : Prop :=
  ∃ header', header'.clusterBits = header.clusterBits ∧ Within header' low high q

theorem ends_relocateRefcountTable (h : Within header low high q) {n : Nat} (hn : header.refcountTableClusters ≤ n) :
    (relocateRefcountTable host n).Ends (Moved header low (high + n * 2 * header.clusterSize)) (fun _ => True) q := by
  have hhigh := h.high
  obtain rfl := h.same
  have hnext := Nat.le_add_right q.nextAllocOffset (n * q.header.clusterSize)
  have hsum : high + n * 2 * q.header.clusterSize = high + n * q.header.clusterSize + n * q.header.clusterSize := by ring
  unfold Ends relocateRefcountTable
  rw [hsum]
  apply wp_get_bind
  apply wp_get_bind
  apply wp_modifyGet_bind
  have hbump : Within q.header _ (high + n * q.header.clusterSize) _ := h.bump hnext (by omega)
  refine Wp.seq (Wp.mono (setLen_within _ _ hbump) (fun _ _ hq' => hq') fun _ _ hq' => ?_) fun _ q' hq' => ?_
  · exact ⟨_, rfl, (hq'.mono (Nat.le_add_right _ _)).lower (h.low.trans hnext)⟩
  have hoffsets : ∀ off ∈ (List.range n).map fun i => q.nextAllocOffset + i * q.header.clusterSize,
      off ≤ q.nextAllocOffset + n * q.header.clusterSize := by
    intro off hoff
    obtain ⟨i, hi, rfl⟩ := List.mem_map.mp hoff
    exact Nat.add_le_add_left (Nat.mul_le_mul_right _ (List.mem_range.mp hi).le) _
  have hcounts := ends_setRefcounts host hq'.1 hoffsets
  rw [List.length_map, List.length_range] at hcounts
  refine Wp.seq (Wp.mono hcounts (fun _ _ hq'' => hq'') fun _ _ hq'' => ?_) fun _ q'' hq'' => ?_
  · exact ⟨_, rfl, hq''.lower (h.low.trans hnext)⟩
  have hheader := hq''.1.same
  apply wp_modifyGet_bind
  apply wp_get_bind
  refine (writeAll_within _ _ _ ?_).imp fun q₃ hq₃ =>
    ⟨{ q.header with refcountTableOffset := q.nextAllocOffset, refcountTableClusters := n }, rfl, hq₃⟩
  refine ⟨by rw [hheader], (h.low.trans hnext).trans hq''.1.low, hq''.1.high, hq''.1.table.imp_left fun hle => ?_⟩
  exact hle.trans (Nat.mul_le_mul_right _ hn)

theorem ends_growRefcountTable (h : Within header low high q) (hfits : header.Fits) :
    (growRefcountTable host).Ends (Moved header low (high + flushRoom header.clusterSize high)) (fun _ => True) q := by
  have hhigh := h.high
  obtain rfl := h.same
  unfold Ends growRefcountTable
  apply wp_get_bind
  split
  · rename_i hmore
    have hle : q.refcountTableClustersNeeded ≤ q.refcountTable.length * 8 ⌈/⌉ q.header.clusterSize := by
      rw [Nat.ceilDiv_eq_add_pred_div]
      exact (Nat.mod_le _ _).trans (Nat.div_le_div_right (Nat.mod_le _ _))
    have hcs := clusterSize_pos q.header
    rw [Nat.ceilDiv_eq_add_pred_div] at hle
    have hshort : q.header.refcountTableClusters * q.header.clusterSize < q.refcountTable.length * 8 := by
      have hlt := (Nat.le_div_iff_mul_le hcs).mp (Nat.succ_le_of_lt (hmore.trans_le hle))
      rw [Nat.succ_mul] at hlt
      omega
    have hspan := h.table.resolve_left (Nat.not_le.mpr hshort)
    have hneeded : q.refcountTableClustersNeeded ≤ countClusters q.header.clusterSize high := by
      have hspans : q.refcountTable.length - 1 ≤ high / (refcountsPerBlock q.header.clusterSize * q.header.clusterSize) :=
        (Nat.le_div_iff_mul_le (span_pos hfits)).mpr (hspan.trans h.high)
      rw [countClusters, Nat.ceilDiv_eq_add_pred_div]
      exact hle.trans (Nat.div_le_div_right (by omega))
    have hroom : high + q.refcountTableClustersNeeded * 2 * q.header.clusterSize ≤
        high + flushRoom q.header.clusterSize high :=
      Nat.add_le_add_left (Nat.mul_le_mul_right _ (Nat.mul_le_mul_right _ hneeded)) _
    refine (ends_relocateRefcountTable h hmore.le).imp fun q' hq' => ?_
    obtain ⟨header', hbits, hq'⟩ := hq'
    exact ⟨header', hbits, hq'.mono hroom⟩
  · exact wp_pure ⟨⟨_, rfl, h.mono (Nat.le_add_right _ _)⟩, trivial⟩

theorem ends_writeRefcountTable (h : Within header low high q) (hfits : header.Fits) :
    (writeRefcountTable host).Ends (Moved header low (high + flushRoom header.clusterSize high)) (fun _ => True) q := by
  refine Wp.seq (Wp.mono (ends_growRefcountTable h hfits) (fun _ _ hq' => hq') fun _ _ hq' => hq') ?_
  rintro _ q' ⟨⟨header', hbits, hq'⟩, -⟩
  exact ((keeps_get.bind fun q _ => writeAll_within _ _) q' hq').imp fun q'' hq'' => ⟨header', hbits, hq''⟩

theorem writeL1Table_within : (writeL1Table host : Io B Unit).Keeps (Within header low high) fun _ => True :=
  keeps_get.bind fun _ _ => writeAll_within _ _

theorem ends_flush (host : Host) (h : Within header low high q) (hfits : header.Fits) :
    (flush host).Ends (Moved header low (high + flushRoom header.clusterSize high)) (fun _ => True) q := by
  have hroom := Nat.le_add_right high (flushRoom header.clusterSize high)
  unfold Ends flush
  apply wp_get_bind
  refine Wp.seq (Wp.mono (flushL2Tables_within _ q h) (fun _ _ hq' => hq') fun _ _ hq' => ⟨_, rfl, hq'.mono hroom⟩) ?_
  intro _ q' hq'
  refine Wp.seq (Wp.mono (writeL1Table_within q' hq'.1) (fun _ _ hq'' => hq'') fun _ _ hq'' => ⟨_, rfl, hq''.mono hroom⟩) ?_
  exact fun _ q'' hq'' => ends_writeRefcountTable hq''.1 hfits

end Qcow2File

end CloneVmm.Storage
