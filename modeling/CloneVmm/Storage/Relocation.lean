import CloneVmm.Storage.L2Cache

namespace CloneVmm.Storage

open CloneVmm.Lib CloneVmm.Lib.Prog

def Owner.isRefcount : Owner → Bool
  | refcountTable _ | refcountBlock _ => true
  | _ => false

def Owner.isDisk : Owner → Bool
  | l1 _ | l2 _ | data _ => true
  | _ => false

namespace Qcow2File

variable {B : Type} {host : Host} {rs rs' : List Nat} {q q' q'' : Qcow2File B}

theorem room_of_counts {cs rpb L j₀ jₙ n k len c clusters : Nat} (hcs : 512 ≤ cs) (hrpb : rpb * 2 = cs)
    (hL : L * 8 ≤ n * cs) (hn : clusters < n) (hc : c ≤ L * rpb + clusters / rpb + 2) (hj₀ : j₀ * rpb ≤ c)
    (hjₙ : c + n ≤ (jₙ + 1) * rpb) (hlen : len ≤ max L j₀ + k) (hlt : jₙ < len) : len * 8 ≤ n * cs + k * cs := by
  have hk : k * 512 ≤ k * cs := Nat.mul_le_mul_left k hcs
  rcases Nat.le_total j₀ L with hle | hle
  · omega
  · have hpos : 0 < rpb := by omega
    -- every range that the table passes has a block
    have hblocks : n ≤ k * rpb := by
      have hle' : (jₙ + 1) * rpb ≤ (j₀ + k) * rpb := Nat.mul_le_mul_right rpb (by omega)
      rw [Nat.add_mul j₀ k] at hle'
      omega
    have hdiv : clusters / rpb ≤ k := by
      have : n / rpb ≤ k := Nat.div_le_of_le_mul (by rw [Nat.mul_comm]; exact hblocks)
      have : clusters / rpb ≤ n / rpb := Nat.div_le_div_right hn.le
      omega
    have hkpos : 0 < k := by
      by_contra hzero
      have : k = 0 := by omega
      subst this
      omega
    obtain ⟨G, rfl⟩ := Nat.exists_eq_add_of_le hle
    generalize clusters / rpb = a at hc hdiv
    have hG : 256 * G ≤ k + 2 := by
      have hle' : 256 * G ≤ rpb * G := Nat.mul_le_mul_right G (by omega)
      rw [Nat.add_mul L G, Nat.mul_comm G] at hj₀
      omega
    omega

theorem next_of_counts {rpb j₀ jₙ n k len c : Nat} (hpos : 0 < rpb) (hj₀ : c < (j₀ + 1) * rpb)
    (hlast : jₙ * rpb ≤ c + (n - 1)) (hn : 0 < n)
    (hjₙ : c + n ≤ (jₙ + 1) * rpb) (hlt : jₙ < len) (hk : k + j₀ ≤ jₙ + 1) : c + n + k ≤ len * rpb + (n / rpb + 2) := by
  have hlen : (jₙ + 1) * rpb ≤ len * rpb := Nat.mul_le_mul_right rpb hlt
  have hbound : jₙ ≤ j₀ + 1 + n / rpb := by
    rcases Nat.le_total jₙ (j₀ + 1) with hle | hge
    · exact hle.trans (Nat.le_add_right _ _)
    · obtain ⟨d, rfl⟩ := Nat.exists_eq_add_of_le hge
      apply Nat.add_le_add_left
      rw [Nat.le_div_iff_mul_le hpos]
      rw [Nat.add_mul (j₀ + 1) d] at hlast
      omega
  generalize n / rpb = b at hbound
  omega

def moved (q : Qcow2File B) (off n : Nat) : Qcow2File B :=
  { q with header := { q.header with refcountTableOffset := off, refcountTableClusters := n } }

structure Moves (q q' : Qcow2File B) : Prop where
  header : ∃ off n, q'.header = (q.moved off n).header
  l1Table : q'.l1Table = q.l1Table
  l2Cache : q'.l2Cache = q.l2Cache
  backing : q'.backing = q.backing
  bytes : ∀ o off, o.isDisk = true → q.place [] o = some off →
    ∀ k, k < q.header.clusterSize → q'.file.data (off + k) = q.file.data (off + k)
  name : ∀ k, qcow2V3HeaderSize ≤ k → k < q.header.clusterSize → q'.file.data k = q.file.data k

namespace Moves

theorem clusterSize (h : Moves q q') : q'.header.clusterSize = q.header.clusterSize := by
  obtain ⟨off, n, hheader⟩ := h.header
  rw [hheader]
  rfl

theorem l2Offset (h : Moves q q') : q'.l2Offset = q.l2Offset := by
  funext i
  rw [Qcow2File.l2Offset, Qcow2File.l2Offset, h.l1Table]

theorem l2View (h : Moves q q') (hfits : q.header.Fits) {i off : Nat} (hoff : q.l2Offset i = some off) :
    q'.l2View i off = q.l2View i off := by
  obtain ⟨off', n, hheader⟩ := h.header
  unfold Qcow2File.l2View
  rw [h.l2Cache, hheader]
  cases q.l2Cache.lookup i with
  | some entry => rfl
  | none =>
    apply tableAt_congr
    intro p hlo hhi
    have hmul := l2EntriesPerTable_mul hfits
    obtain ⟨k, rfl⟩ := Nat.exists_eq_add_of_le hlo
    exact h.bytes (.l2 i) off rfl hoff k (by change _ < _ + q.header.l2EntriesPerTable * 8 at hhi; omega)

theorem dataOffset (h : Moves q q') (hfits : q.header.Fits) : q'.dataOffset = q.dataOffset := by
  obtain ⟨off', n, hheader⟩ := h.header
  have hentries : q'.header.l2EntriesPerTable = q.header.l2EntriesPerTable := by rw [hheader]; rfl
  funext g
  unfold Qcow2File.dataOffset
  rw [hentries, h.l2Offset]
  cases hoff : q.l2Offset (g / q.header.l2EntriesPerTable) with
  | none => rfl
  | some off => rw [Option.bind_some, Option.bind_some, h.l2View hfits hoff]

theorem place (h : Moves q q') (hfits : q.header.Fits) {o : Owner} (ho : o.isDisk = true) : q'.place [] o = q.place [] o := by
  obtain ⟨off', n, hheader⟩ := h.header
  cases o with
  | l1 i =>
    unfold Qcow2File.place Qcow2File.l1Clusters
    rw [hheader]
    rfl
  | l2 i => exact congrFun h.l2Offset i
  | data g => exact congrFun (h.dataOffset hfits) g
  | header | refcountTable i | refcountBlock i | reserved i => cases ho

theorem trans (h : Moves q q') (h' : Moves q' q'') (hfits : q.header.Fits) : Moves q q'' where
  header := by
    obtain ⟨off, n, hheader⟩ := h.header
    obtain ⟨off', n', hheader'⟩ := h'.header
    exact ⟨off', n', by rw [hheader', moved, hheader]; rfl⟩
  l1Table := h'.l1Table.trans h.l1Table
  l2Cache := h'.l2Cache.trans h.l2Cache
  backing := h'.backing.trans h.backing
  bytes o off ho hoff k hk := by
    rw [h'.bytes o off ho (by rw [h.place hfits ho, hoff]) k (by rwa [h.clusterSize]), h.bytes o off ho hoff k hk]
  name k hlo hhi := by rw [h'.name k hlo (by rwa [h.clusterSize]), h.name k hlo hhi]

theorem of_frame {P : Owner → Prop} (h : Frame P rs q q') (hcache : q'.l2Cache = q.l2Cache)
    (hP : ∀ o : Owner, o.isDisk = true ∨ o = .header → P o) : Moves q q' where
  header := ⟨q.header.refcountTableOffset, q.header.refcountTableClusters, h.header⟩
  l1Table := h.l1Table
  l2Cache := hcache
  backing := h.backing
  bytes o off ho hoff := by
    apply h.bytes o off _ (hP o (Or.inl ho))
    cases o with
    | l1 i | l2 i | data g => exact hoff
    | header | refcountTable i | refcountBlock i | reserved i => cases ho
  name k _ hk := by
    have := h.bytes .header 0 rfl (hP .header (Or.inr rfl)) k hk
    rwa [Nat.zero_add] at this

theorem of_grown (h : Grown rs q q') : Moves q q' := by
  apply of_frame h.toFrame h.l2Cache
  rintro o (ho | rfl)
  · cases o with
    | l1 i | l2 i | data g => rfl
    | header | refcountTable i | refcountBlock i | reserved i => cases ho
  · rfl

end Moves

theorem block_lt {j : Nat} (h : q.block j ≠ 0) : j < q.refcountTable.length := by
  by_contra hge
  apply h
  rw [block, List.getD_eq_getElem?_getD, List.getElem?_eq_none (by omega), Option.getD_none]

/-- `i` clusters from `o` on are counted, and `k` blocks were allocated. -/
structure Counting (host : Host) (rs : List Nat) (q₁ : Qcow2File B) (o i k : Nat) (q : Qcow2File B) : Prop
    extends Grown rs q₁ q where
  sound : Sound host rs q
  nextAlloc : q.nextAllocOffset = q₁.nextAllocOffset + k * q₁.header.clusterSize
  behind : ∀ m < k, ∃ j, q.block j = q₁.nextAllocOffset + m * q₁.header.clusterSize
  length : q.refcountTable.length ≤ max q₁.refcountTable.length (q₁.tableIndex o) + k
  upper : q.refcountTable.length ≤ q₁.refcountTable.length ∨ (q.refcountTable.length - 1) * span q₁.header < host.limit
  start : i = 0 → k = 0
  last : ∀ i', i = i' + 1 → q.block (q₁.tableIndex (o + i' * q₁.header.clusterSize)) ≠ 0 ∧
    k + q₁.tableIndex o ≤ q₁.tableIndex (o + i' * q₁.header.clusterSize) + 1

structure CountRefused (host : Host) (rs : List Nat) (q₁ : Qcow2File B) (e : Qcow2Error) (q : Qcow2File B) : Prop
    extends Grown rs q₁ q where
  refused : e = .refused
  sound : Sound host rs q
  upper : q.refcountTable.length ≤ q₁.refcountTable.length ∨ (q.refcountTable.length - 1) * span q₁.header < host.limit
  limit : host.limit < q.nextAllocOffset

section Counting

variable {q₁ : Qcow2File B} {o i k : Nat}

theorem tableIndex_mono {off off' : Nat} (h : off ≤ off') : q₁.tableIndex off ≤ q₁.tableIndex off' := by
  rw [tableIndex_eq, tableIndex_eq]
  exact Nat.div_le_div_right h

theorem tableIndex_succ (hfits : q₁.header.Fits) (off : Nat) :
    q₁.tableIndex (off + q₁.header.clusterSize) ≤ q₁.tableIndex off + 1 := by
  have hspan := span_pos hfits
  have hle : q₁.header.clusterSize ≤ span q₁.header := by
    have := refcountsPerBlock_mul hfits
    have := clusterSize_pos q₁.header
    exact Nat.le_mul_of_pos_left _ (by omega)
  rw [tableIndex_eq, tableIndex_eq, ← Nat.add_div_right _ hspan]
  exact Nat.div_le_div_right (by omega)

theorem upper_of_max {n n' j off limit : Nat} (h : n ≤ q₁.refcountTable.length ∨ (n - 1) * span q₁.header < limit)
    (hoff : off < limit) (hj : j = q₁.tableIndex off) (hn : n' = max n (j + 1)) :
    n' ≤ q₁.refcountTable.length ∨ (n' - 1) * span q₁.header < limit := by
  subst hn hj
  rcases Nat.le_total (q₁.tableIndex off + 1) n with hle | hle
  · rwa [Nat.max_eq_left hle]
  · right
    rw [Nat.max_eq_right hle, Nat.add_sub_cancel]
    exact (tableIndex_span_le q₁ off).trans_lt hoff

theorem Counting.index_le (h : Counting host rs q₁ o i k q) (hfits : q₁.header.Fits) :
    q₁.tableIndex (o + i * q₁.header.clusterSize) ≤ max q₁.refcountTable.length (q₁.tableIndex o) + k := by
  cases i with
  | zero =>
    rw [Nat.zero_mul, Nat.add_zero]
    omega
  | succ i =>
    have hlast := (h.last i rfl).1
    have hlt := block_lt hlast
    have hlen := h.length
    have hsucc := tableIndex_succ hfits (o + i * q₁.header.clusterSize)
    rw [Nat.add_assoc, ← Nat.add_one_mul] at hsucc
    omega

theorem Counting.count_le (h : Counting host rs q₁ o i k q) :
    k + q₁.tableIndex o ≤ q₁.tableIndex (o + i * q₁.header.clusterSize) + 1 ∧
      (q.block (q₁.tableIndex (o + i * q₁.header.clusterSize)) = 0 →
        k + q₁.tableIndex o ≤ q₁.tableIndex (o + i * q₁.header.clusterSize)) := by
  cases i with
  | zero =>
    have hzero : o + 0 * q₁.header.clusterSize = o := by rw [Nat.zero_mul, Nat.add_zero]
    rw [h.start rfl, hzero]
    omega
  | succ i =>
    obtain ⟨hblock, hle⟩ := h.last i rfl
    have hmono : q₁.tableIndex (o + i * q₁.header.clusterSize) ≤ q₁.tableIndex (o + (i + 1) * q₁.header.clusterSize) :=
      tableIndex_mono (Nat.add_le_add_left (Nat.mul_le_mul_right _ (Nat.le_succ i)) o)
    refine ⟨by omega, fun hzero => ?_⟩
    have hne : q₁.tableIndex (o + i * q₁.header.clusterSize) ≠ q₁.tableIndex (o + (i + 1) * q₁.header.clusterSize) := by
      intro heq
      rw [heq] at hblock
      exact hblock hzero
    omega

theorem Counting.step (h : Counting host rs q₁ o i k q) (hfits : q₁.header.Fits) (hstart : q₁.nextAllocOffset ≠ 0)
    (hoff : o + i * q₁.header.clusterSize < host.limit) (hsound : Sound host rs q')
    (hmarked : Marked rs (q₁.tableIndex (o + i * q₁.header.clusterSize)) q q') :
    ∃ k', Counting host rs q₁ o (i + 1) k' q' := by
  have hnext := h.sound.nextAllocOffset_ne_zero
  have hindex := h.index_le hfits
  have hgrown := h.toGrown.trans hmarked.toGrown
  have hupper := upper_of_max h.upper hoff rfl hmarked.length
  have hblock := hmarked.block_ne_zero hnext
  have hbehind : ∀ m < k, ∃ j, q'.block j = q₁.nextAllocOffset + m * q₁.header.clusterSize := by
    intro m hm
    obtain ⟨j, hj⟩ := h.behind m hm
    exact ⟨j, (hmarked.blocks j (by omega)).trans hj⟩
  by_cases hzero : q.block (q₁.tableIndex (o + i * q₁.header.clusterSize)) = 0
  · obtain ⟨hfresh, hnext'⟩ := hmarked.fresh hzero
    refine ⟨k + 1, hgrown, hsound, ?_, ?_, ?_, hupper, ?_, ?_⟩
    · rw [hnext', h.nextAlloc, h.header]
      ring
    · intro m hm
      rcases Nat.lt_succ_iff_lt_or_eq.mp hm with hlt | rfl
      · exact hbehind m hlt
      · exact ⟨_, hfresh.trans h.nextAlloc⟩
    · rw [hmarked.length]
      have := h.length
      omega
    · intro hcontra
      cases hcontra
    · intro i' hi'
      cases hi'
      have := h.count_le.2 hzero
      exact ⟨hblock, by omega⟩
  · refine ⟨k, hgrown, hsound, ?_, hbehind, ?_, hupper, ?_, ?_⟩
    · rw [hmarked.there hzero, h.nextAlloc]
    · rw [hmarked.length]
      have := h.length
      have := block_lt hzero
      omega
    · intro hcontra
      cases hcontra
    · intro i' hi'
      cases hi'
      exact ⟨hblock, h.count_le.1⟩

theorem wp_setRefcounts (hfits : q₁.header.Fits) (hstart : q₁.nextAllocOffset ≠ 0) {m : Nat}
    (h : Counting host rs q₁ o i k q) (hoff : o + (i + m) * q₁.header.clusterSize ≤ host.limit) :
    (setRefcounts host ((List.range' i m).map fun i => o + i * q₁.header.clusterSize)).Wp
      (fun _ q' => ∃ k', Counting host rs q₁ o (i + m) k' q') (CountRefused host rs q₁) q := by
  induction m generalizing i k q with
  | zero => exact wp_pure ⟨k, h⟩
  | succ m ih =>
    have hcs := clusterSize_pos q₁.header
    have hoff' : o + i * q₁.header.clusterSize < host.limit := by
      have : i * q₁.header.clusterSize < (i + (m + 1)) * q₁.header.clusterSize :=
        Nat.mul_lt_mul_of_pos_right (by omega) hcs
      omega
    have hindex : q.tableIndex (o + i * q₁.header.clusterSize) = q₁.tableIndex (o + i * q₁.header.clusterSize) := by
      rw [tableIndex, tableIndex, h.header]
    have hset := wp_setRefcount h.sound (o + i * q₁.header.clusterSize)
    rw [hindex] at hset
    rw [List.range'_succ, List.map_cons]
    unfold setRefcounts
    refine Wp.seq (hset.mono (fun _ _ hq' => hq') ?_) ?_
    · intro e q' hq'
      exact ⟨h.toGrown.trans hq'.toGrown, hq'.refused, hq'.sound, upper_of_max h.upper hoff' rfl hq'.length, hq'.limit⟩
    · rintro _ q' ⟨hsound, hmarked, -⟩
      obtain ⟨k', hk'⟩ := h.step hfits hstart hoff' hsound hmarked
      have hrest := ih hk' (by rw [Nat.add_right_comm, Nat.add_assoc i m 1]; exact hoff)
      rwa [Nat.add_right_comm, Nat.add_assoc i m 1] at hrest

end Counting

def Owner.swapTable : Owner → Owner
  | .refcountTable i => .reserved i
  | .reserved i => .refcountTable i
  | o => o

theorem Owner.swapTable_injective : Function.Injective Owner.swapTable := by
  apply Function.Involutive.injective
  intro o
  cases o with
  | refcountTable i | reserved i | header | l1 i | refcountBlock i | l2 i | data g => rfl

def relocated (q : Qcow2File B) (off n : Nat) : Qcow2File B := (q.moved off n).wrote 0 (q.moved off n).header.bytes

section Relocated

variable {off n : Nat}

theorem headerBytes_le (h : q.header.Fits) (off n : Nat) : (q.moved off n).header.bytes.length ≤ qcow2V3HeaderSize ∧
    qcow2V3HeaderSize ≤ q.header.clusterSize := by
  have hcs := clusterSize_bounds h
  rw [Qcow2Header.bytes_length]
  unfold Qcow2Header.length qcow2V3HeaderSize
  constructor
  · split
    · exact Nat.le_refl _
    · omega
  · omega

theorem relocated_data : (q.relocated off n).file.data = writeBytes q.file.data 0 (q.moved off n).header.bytes := rfl

theorem Sound.relocated_bytes (h : Sound host rs q) {o : Owner} {off' : Nat} (hplace : q.place rs o = some off')
    (ho : o ≠ .header) {k : Nat} (hk : k < q.header.clusterSize) :
    (q.relocated off n).file.data (off' + k) = q.file.data (off' + k) := by
  obtain ⟨hle, hle'⟩ := headerBytes_le h.fits off n
  rw [relocated_data]
  apply h.placed.writeBytes_frame (P := (· = .header)) _ hplace ho hk
  exact fun p hlo hhi => ⟨_, _, rfl, rfl, hlo, by omega⟩

theorem Sound.relocated_moves (h : Sound host rs q) : Moves q (q.relocated off n) where
  header := ⟨off, n, rfl⟩
  l1Table := rfl
  l2Cache := rfl
  backing := rfl
  bytes o off' ho hoff' k hk := by
    have hplace : q.place rs o = some off' := by
      cases o with
      | l1 i | l2 i | data g => exact hoff'
      | header | refcountTable i | refcountBlock i | reserved i => cases ho
    apply h.relocated_bytes hplace _ hk
    rintro rfl
    cases ho
  name k hlo _ := by
    obtain ⟨hle, -⟩ := headerBytes_le h.fits off n
    rw [relocated_data]
    exact writeBytes_outside (by omega)

theorem fits_moved (h : q.header.Fits) (hoff : off < 2 ^ 64) (hn : n < 2 ^ 32) : (q.moved off n).header.Fits := by
  obtain ⟨h1, h2, h3, h4, h5, h6, h7, h8, h9, -, -, h12, h13, h14, h15, h16, h17, h18, h19, h20⟩ := h
  exact ⟨h1, h2, h3, h4, h5, h6, h7, h8, h9, hoff, hn, h12, h13, h14, h15, h16, h17, h18, h19, h20⟩

theorem Sound.relocated (h : Sound host rs q) (hoff : off < 2 ^ 64) (hn : n < 2 ^ 32) (hpos : 0 < n)
    (hrs : ∀ i, i < n → rs[i]? = some (off + i * q.header.clusterSize))
    (hzero : ∀ i, i < n → ∀ k, k < q.header.clusterSize → q.file.data (off + i * q.header.clusterSize + k) = 0) :
    Sound host [] (q.relocated off n) := by
  obtain ⟨hle, hle'⟩ := headerBytes_le h.fits off n
  have hmoves : Moves q (q.relocated off n) := h.relocated_moves
  have hfits : (q.relocated off n).header.Fits := fits_moved h.fits hoff hn
  have hin := h.placed.inside (o := .header) rfl
  have hlen : (q.relocated off n).file.len = q.file.len := q.file.write_len (by omega)
  have hview : ∀ i off', q.l2Offset i = some off' → (q.relocated off n).l2View i off' = q.l2View i off' :=
    fun i off' hoff' => hmoves.l2View h.fits hoff'
  refine ⟨hfits, ?_, h.l1Length, h.l1Good, ?_, ?_, ?_, ?_, ?_, ?_, ?_, h.nextAligned, ?_⟩
  · apply Qcow2Header.readFrom_of_bytes hfits
    · rw [hlen, ← Qcow2Header.bytes_length]
      exact (hle.trans hle').trans (by omega)
    · rw [← Qcow2Header.bytes_length, relocated_data]
      exact readBytes_writeBytes _ _ _
  · intro i off' hoff' e he
    rw [hview i off' hoff'] at he
    exact h.l2Good i off' hoff' e he
  · intro i entry hentry
    obtain ⟨hoff', hlength, hclean⟩ := h.cached i entry hentry
    refine ⟨hoff', hlength, fun hdirty => ?_⟩
    refine (hclean hdirty).trans (h.tableAt_eq fun k hk => ?_).symm
    exact h.relocated_bytes (o := .l2 i) hoff' (by simp) hk
  · rw [hlen]
    exact h.l1Inside
  · rw [hlen]
    have hlast := h.placed.inside (o := .reserved (n - 1)) (hrs (n - 1) (by omega))
    have hmul : (n - 1) * q.header.clusterSize + q.header.clusterSize = n * q.header.clusterSize := by
      rw [← Nat.add_one_mul, Nat.sub_add_cancel hpos]
    change off + n * q.header.clusterSize ≤ _
    omega
  · intro i
    left
    apply tableAt_zero
    intro p hlo hhi
    have hcount : (q.relocated off n).header.refcountTableClusters * (q.relocated off n).header.clusterSize / 8 * 8 ≤
        n * q.header.clusterSize := Nat.div_mul_le_self _ _
    change off ≤ p at hlo
    change p < off + _ at hhi
    obtain ⟨i, hi, k, hk, rfl⟩ := exists_row_index (n := n) (clusterSize_pos q.header) hlo (by omega)
    rw [h.relocated_bytes (o := .reserved i) (hrs i hi) (by simp) hk]
    exact hzero i hi k hk
  · rw [hlen]
    apply h.placed.of_embedding Owner.swapTable Owner.swapTable_injective
    intro o off' hoff'
    cases o with
    | refcountTable i =>
      have hi : i < n := by
        by_contra hge
        have hnone : (q.relocated off n).place [] (.refcountTable i) = none := if_neg hge
        rw [hnone] at hoff'
        cases hoff'
      have hsome : (q.relocated off n).place [] (.refcountTable i) = some (off + i * q.header.clusterSize) := if_pos hi
      rw [hsome] at hoff'
      cases hoff'
      exact hrs i hi
    | reserved i => cases hoff'
    | l1 i | l2 i | data g => exact (hmoves.place h.fits rfl).symm.trans hoff'
    | header | refcountBlock i => exact hoff'
  · rw [hlen]
    exact h.lenLe
  · rw [hlen]
    exact h.lenLimit

end Relocated

theorem clustersNeeded_eq (h : q.header.Fits) (htable : TableOk host q) (hlimit : host.limit ≤ 2 ^ 54) :
    q.refcountTableClustersNeeded = (q.refcountTable.length * 8 + q.header.clusterSize - 1) / q.header.clusterSize ∧
      q.refcountTableClustersNeeded < 2 ^ 32 := by
  obtain ⟨hlo, hhi⟩ := clusterSize_bounds h
  have hrpb := refcountsPerBlock_mul h
  have hclusters := h.refcountTableClusters
  have hsmall : q.refcountTable.length * 8 + q.header.clusterSize - 1 < 2 ^ 64 ∧
      (q.refcountTable.length * 8 + q.header.clusterSize - 1) / q.header.clusterSize < 2 ^ 32 := by
    rcases htable.upper with hle | hlt
    · have hmul : q.header.refcountTableClusters * q.header.clusterSize ≤ 2 ^ 32 * 2 ^ 21 :=
        Nat.mul_le_mul hclusters.le hhi
      refine ⟨by omega, ?_⟩
      apply Nat.div_lt_of_lt_mul
      calc q.refcountTable.length * 8 + q.header.clusterSize - 1
          < q.header.refcountTableClusters * q.header.clusterSize + q.header.clusterSize := by omega
        _ = q.header.clusterSize * (q.header.refcountTableClusters + 1) := by ring
        _ ≤ q.header.clusterSize * 2 ^ 32 := Nat.mul_le_mul_left _ hclusters
    · have hspan : 2 ^ 8 * 2 ^ 9 ≤ span q.header := Nat.mul_le_mul (by omega) (by omega)
      have hmul := Nat.mul_le_mul_left (q.refcountTable.length - 1) hspan
      have hlen : q.refcountTable.length ≤ 2 ^ 37 := by omega
      refine ⟨by omega, ?_⟩
      calc (q.refcountTable.length * 8 + q.header.clusterSize - 1) / q.header.clusterSize
          ≤ (2 ^ 40 + 2 ^ 21) / 2 ^ 9 := Nat.div_le_div (by omega) (by omega) (by omega)
        _ < 2 ^ 32 := by decide
  have heq : q.refcountTableClustersNeeded =
      (q.refcountTable.length * 8 + q.header.clusterSize - 1) / q.header.clusterSize := by
    rw [refcountTableClustersNeeded, divRoundUp, Nat.mod_eq_of_lt hsmall.1, Nat.mod_eq_of_lt hsmall.2]
  exact ⟨heq, heq ▸ hsmall.2⟩

theorem le_roundUp (a : Nat) {size : Nat} (hsize : 0 < size) : a ≤ (a + size - 1) / size * size := by
  have := Nat.lt_div_mul_add (a := a + size - 1) hsize
  omega

theorem le_clustersNeeded (h : q.header.Fits) (htable : TableOk host q) (hlimit : host.limit ≤ 2 ^ 54) :
    q.refcountTable.length * 8 ≤ q.refcountTableClustersNeeded * q.header.clusterSize := by
  rw [(clustersNeeded_eq h htable hlimit).1]
  exact le_roundUp _ (clusterSize_pos q.header)

def TableRoom (q : Qcow2File B) : Prop :=
  ∀ p, q.header.refcountTableOffset ≤ p → p < q.header.refcountTableOffset + q.refcountTable.length * 8 →
    ∃ o off, o.isRefcount = true ∧ q.place [] o = some off ∧ off ≤ p ∧ p < off + q.header.clusterSize

theorem tableRoom_of_le (h : q.refcountTable.length * 8 ≤ q.header.refcountTableClusters * q.header.clusterSize) :
    q.TableRoom := by
  intro p hlo hhi
  obtain ⟨i, hi, k, hk, rfl⟩ := exists_row_index (n := q.header.refcountTableClusters) (clusterSize_pos q.header) hlo
    (by omega)
  exact ⟨.refcountTable i, _, rfl, if_pos hi, by omega, by omega⟩

structure Grew (host : Host) (q q' : Qcow2File B) : Prop extends Moves q q' where
  sound : Sound host [] q'
  tableOk : TableOk host q'

section Relocate

variable {n k : Nat}

theorem tableIndex_mul (q : Qcow2File B) (c : Nat) :
    q.tableIndex (c * q.header.clusterSize) = c / refcountsPerBlock q.header.clusterSize := by
  rw [tableIndex, Nat.mul_div_cancel _ (clusterSize_pos _)]

def roomFor (q : Qcow2File B) (n : Nat) : Qcow2File B := q.extended (q.nextAllocOffset + n * q.header.clusterSize)

theorem Sound.counting_start (h : Sound host [] q) (hlimit : q.nextAllocOffset + n * q.header.clusterSize ≤ host.limit) :
    Counting host (q.newClusters n) (q.roomFor n) q.nextAllocOffset 0 0 (q.roomFor n) where
  toGrown := .refl _ _
  sound := h.extend n hlimit
  nextAlloc := by rw [Nat.zero_mul, Nat.add_zero]
  behind m hm := by cases hm
  length := Nat.le_max_left _ _
  upper := Or.inl (Nat.le_refl _)
  start _ := rfl
  last i' hi' := by cases hi'

theorem Counting.room (hc : Counting host (q.newClusters n) (q.roomFor n) q.nextAllocOffset n k q') (h : Sound host [] q)
    (htable : TableOk host q) (hlimit : q.nextAllocOffset + n * q.header.clusterSize ≤ host.limit)
    (hmore : q.header.refcountTableClusters * q.header.clusterSize < q.refcountTable.length * 8)
    (hn : q.header.refcountTableClusters < n) (hfit : q.refcountTable.length * 8 ≤ n * q.header.clusterSize) :
    q'.refcountTable.length * 8 ≤ n * q.header.clusterSize + k * q.header.clusterSize ∧
      q'.nextAllocOffset ≤ q'.refcountTable.length * span q.header
        + (n / refcountsPerBlock q.header.clusterSize + 2) * q.header.clusterSize := by
  obtain ⟨hlo, -⟩ := clusterSize_bounds h.fits
  have hrpb := refcountsPerBlock_mul h.fits
  have hpos : 0 < refcountsPerBlock q.header.clusterSize := by omega
  obtain ⟨c, hnext⟩ := h.nextAligned
  rw [Nat.mul_comm] at hnext
  obtain ⟨n, rfl⟩ : ∃ m, n = m + 1 := ⟨n - 1, by omega⟩
  obtain ⟨hblock, hcount⟩ := hc.last n rfl
  have hlt := block_lt hblock
  have hlength := hc.length
  have hnext' := hc.nextAlloc
  change q'.nextAllocOffset = q.nextAllocOffset + (n + 1) * q.header.clusterSize + k * q.header.clusterSize at hnext'
  have hfirst : (q.roomFor (n + 1)).tableIndex q.nextAllocOffset = c / refcountsPerBlock q.header.clusterSize := by
    rw [hnext]
    exact tableIndex_mul q c
  have hlast : (q.roomFor (n + 1)).tableIndex (q.nextAllocOffset + n * q.header.clusterSize) =
      (c + n) / refcountsPerBlock q.header.clusterSize := by
    rw [hnext, ← Nat.add_mul]
    exact tableIndex_mul q (c + n)
  rw [show (q.roomFor (n + 1)).header.clusterSize = q.header.clusterSize from rfl] at hblock hcount hlt
  rw [hlast] at hlt hcount
  rw [hfirst] at hcount hlength
  have hlower : c ≤ q.refcountTable.length * refcountsPerBlock q.header.clusterSize
      + q.header.refcountTableClusters / refcountsPerBlock q.header.clusterSize + 2 := by
    rcases htable.lower with hle | hle | hgt
    · omega
    · rw [hnext, span, ← Nat.mul_assoc, ← Nat.add_mul] at hle
      have := Nat.le_of_mul_le_mul_right hle (clusterSize_pos _)
      rwa [← Nat.add_assoc] at this
    · omega
  have hbelow := Nat.div_mul_le_self c (refcountsPerBlock q.header.clusterSize)
  have habove := Nat.lt_div_mul_add (a := c) hpos
  have hbelow' := Nat.div_mul_le_self (c + n) (refcountsPerBlock q.header.clusterSize)
  have habove' := Nat.lt_div_mul_add (a := c + n) hpos
  constructor
  · refine room_of_counts hlo hrpb hfit hn hlower hbelow ?_ hlength hlt
    rw [Nat.add_one_mul]
    omega
  · have hsum := next_of_counts (n := n + 1) (k := k) hpos (by rw [Nat.add_one_mul]; exact habove)
      (by rwa [Nat.add_sub_cancel]) (by omega) (by rw [Nat.add_one_mul]; omega) hlt hcount
    have hmul := Nat.mul_le_mul_right q.header.clusterSize hsum
    rw [hnext', hnext, span, ← Nat.mul_assoc, ← Nat.add_mul, ← Nat.add_mul, ← Nat.add_mul]
    exact hmul

theorem Moves.of_data (hheader : q'.header = q.header) (hl1 : q'.l1Table = q.l1Table) (hcache : q'.l2Cache = q.l2Cache)
    (hbacking : q'.backing = q.backing) (hdata : q'.file.data = q.file.data) : Moves q q' := by
  have hframe : Frame (fun _ => True) [] q q' := .of_data hheader hl1 hbacking hcache hdata
  exact .of_frame hframe hcache fun _ _ => trivial

theorem moves_roomFor (h : Sound host [] q) (n : Nat) : Moves q (q.roomFor n) :=
  .of_data rfl rfl rfl rfl (h.extended_data (Nat.le_add_right _ _))

theorem upper_mono {len : Nat} (h : TableOk host q)
    (hlen : len ≤ q.refcountTable.length ∨ (len - 1) * span q.header < host.limit) :
    len * 8 ≤ q.header.refcountTableClusters * q.header.clusterSize ∨ (len - 1) * span q.header < host.limit := by
  rcases hlen with hle | hlt
  · rcases h.upper with hup | hup
    · exact Or.inl (by omega)
    · refine Or.inr (Nat.lt_of_le_of_lt (Nat.mul_le_mul_right _ ?_) hup)
      omega
  · exact Or.inr hlt

theorem CountRefused.grew {e : Qcow2Error} (hc : CountRefused host (q.newClusters n) (q.roomFor n) e q')
    (h : Sound host [] q) (htable : TableOk host q) : Grew host q q' where
  toMoves := (moves_roomFor h n).trans (.of_grown hc.toGrown) h.fits
  sound := by
    have hsound : Sound host ([] ++ q.newClusters n) q' := hc.sound
    exact hsound.forget
  tableOk := by
    refine ⟨?_, Or.inr (Or.inr hc.limit)⟩
    rw [hc.header]
    exact upper_mono (q := q) htable hc.upper

theorem Counting.grew (hc : Counting host (q.newClusters n) (q.roomFor n) q.nextAllocOffset n k q') (h : Sound host [] q)
    (htable : TableOk host q) (hlimit : q.nextAllocOffset + n * q.header.clusterSize ≤ host.limit)
    (hlimit' : host.limit ≤ 2 ^ 54)
    (hmore : q.header.refcountTableClusters * q.header.clusterSize < q.refcountTable.length * 8)
    (hn : q.header.refcountTableClusters < n) (hn' : n < 2 ^ 32)
    (hfit : q.refcountTable.length * 8 ≤ n * q.header.clusterSize) :
    Grew host q (q'.relocated q.nextAllocOffset n) ∧ (q'.relocated q.nextAllocOffset n).TableRoom := by
  have hheader : q'.header = q.header := hc.header
  have hsize : q'.header.clusterSize = q.header.clusterSize := by rw [hheader]
  have hmoves : Moves q q' := (moves_roomFor h n).trans (.of_grown hc.toGrown) h.fits
  have hrs : ∀ i, i < n → (q.newClusters n)[i]? = some (q.nextAllocOffset + i * q.header.clusterSize) :=
    fun i hi => q.newClusters_getElem?.mpr ⟨hi, rfl⟩
  have hzero : ∀ i, i < n → ∀ d, d < q.header.clusterSize →
      q'.file.data (q.nextAllocOffset + i * q.header.clusterSize + d) = 0 := by
    intro i hi d hd
    rw [hc.bytes (.reserved i) _ (hrs i hi) rfl d hd]
    refine (congrFun (h.extended_data (Nat.le_add_right _ _)) _).trans (q.file.zero_beyond _ ?_)
    have := h.lenLe
    omega
  have hsound : Sound host [] (q'.relocated q.nextAllocOffset n) := by
    apply hc.sound.relocated (by omega) hn' (by omega)
    · rw [hsize]
      exact hrs
    · rw [hsize]
      exact hzero
  obtain ⟨hroom, hnext⟩ := hc.room h htable hlimit hmore hn hfit
  refine ⟨⟨hmoves.trans hc.sound.relocated_moves h.fits, hsound, ?_, ?_⟩, ?_⟩
  · change q'.refcountTable.length * 8 ≤ n * q'.header.clusterSize ∨ (q'.refcountTable.length - 1) * span q'.header < _
    rw [hsize, hheader]
    rcases hc.upper with hle | hlt
    · change q'.refcountTable.length ≤ q.refcountTable.length at hle
      exact Or.inl (by omega)
    · exact Or.inr hlt
  · right
    left
    change q'.nextAllocOffset ≤ q'.refcountTable.length * span q'.header
      + (n / refcountsPerBlock q'.header.clusterSize + 2) * q'.header.clusterSize
    rw [hheader]
    exact hnext
  · intro p hlo hhi
    change q.nextAllocOffset ≤ p at hlo
    change p < q.nextAllocOffset + q'.refcountTable.length * 8 at hhi
    change ∃ o off, o.isRefcount = true ∧ (q'.relocated q.nextAllocOffset n).place [] o = some off ∧ off ≤ p ∧
      p < off + q'.header.clusterSize
    rw [hsize]
    rcases Nat.lt_or_ge p (q.nextAllocOffset + n * q.header.clusterSize) with hin | hout
    · obtain ⟨i, hi, d, hd, rfl⟩ := exists_row_index (clusterSize_pos q.header) hlo hin
      refine ⟨.refcountTable i, q.nextAllocOffset + i * q.header.clusterSize, rfl, ?_, by omega, by omega⟩
      rw [← hsize]
      exact if_pos hi
    · obtain ⟨m, hm, d, hd, rfl⟩ := exists_row_index (n := k) (clusterSize_pos q.header) hout (by omega)
      obtain ⟨j, hj⟩ := hc.behind m hm
      change q'.block j = q.nextAllocOffset + n * q.header.clusterSize + m * q.header.clusterSize at hj
      have hne := h.nextAllocOffset_ne_zero
      refine ⟨.refcountBlock j, q'.block j, rfl, ?_, by omega, by omega⟩
      exact if_neg (show q'.block j ≠ 0 by omega)

theorem wp_relocateRefcountTable (hlimit : host.limit ≤ 2 ^ 54) (h : Sound host [] q) (htable : TableOk host q)
    (hmore : q.header.refcountTableClusters * q.header.clusterSize < q.refcountTable.length * 8)
    (hn : q.header.refcountTableClusters < n) (hn' : n < 2 ^ 32)
    (hfit : q.refcountTable.length * 8 ≤ n * q.header.clusterSize) :
    (relocateRefcountTable host n).Wp (fun _ q' => Grew host q q' ∧ q'.TableRoom)
      (fun e q' => e = .refused ∧ host.limit < q'.nextAllocOffset ∧ Grew host q q') q := by
  unfold relocateRefcountTable
  apply wp_get_bind
  apply wp_get_bind
  apply wp_modifyGet_bind
  apply Wp.bind
  apply wp_setLen
  · intro hle
    have hstart := h.counting_start hle
    have hcount := wp_setRefcounts (m := n) hstart.sound.fits hstart.sound.nextAllocOffset_ne_zero hstart
      (by rw [Nat.zero_add]; exact hle)
    rw [Nat.zero_add, ← List.range_eq_range'] at hcount
    change Wp (setRefcounts host _ >>= _) _ _ (q.roomFor n)
    refine Wp.seq (hcount.mono (fun _ _ hq' => hq') ?_) ?_
    · exact fun e q' hq' => ⟨hq'.refused, hq'.limit, hq'.grew h htable⟩
    · rintro _ q' ⟨k, hk⟩
      have hgrew := hk.grew h htable hle hlimit hmore hn hn' hfit
      have hin := hk.sound.placed.inside (o := .header) rfl
      obtain ⟨hbytes, hbytes'⟩ := headerBytes_le hk.sound.fits q.nextAllocOffset n
      have hlen := hk.sound.lenLimit
      apply wp_modifyGet_bind
      apply wp_get_bind
      change Wp (writeAll host 0 (q'.moved q.nextAllocOffset n).header.bytes) _ _ (q'.moved q.nextAllocOffset n)
      exact wp_writeAll (by omega) hgrew
  · intro hgt
    have hle := Nat.le_add_right q.nextAllocOffset (n * q.header.clusterSize)
    refine ⟨rfl, hgt, .of_data rfl rfl rfl rfl rfl, ?_, ?_, ?_⟩
    · exact h.bump hle (Nat.dvd_add h.nextAligned (Nat.dvd_mul_left _ _))
    · exact htable.upper
    · exact Or.inr (Or.inr hgt)

theorem wp_growRefcountTable (hlimit : host.limit ≤ 2 ^ 54) (h : Sound host [] q) (htable : TableOk host q) :
    (growRefcountTable host).Wp (fun _ q' => Grew host q q' ∧ q'.TableRoom)
      (fun e q' => e = .refused ∧ host.limit < q'.nextAllocOffset ∧ Grew host q q') q := by
  have hcs := clusterSize_pos q.header
  obtain ⟨hneeded, hlt⟩ := clustersNeeded_eq h.fits htable hlimit
  have hfit := le_clustersNeeded h.fits htable hlimit
  unfold growRefcountTable
  apply wp_get_bind
  split
  · rename_i hmore
    apply wp_relocateRefcountTable hlimit h htable _ hmore hlt hfit
    by_contra hle
    apply Nat.not_le.mpr hmore
    rw [hneeded]
    apply Nat.le_of_lt_succ
    apply Nat.div_lt_of_lt_mul
    calc q.refcountTable.length * 8 + q.header.clusterSize - 1
        < q.header.refcountTableClusters * q.header.clusterSize + q.header.clusterSize := by omega
      _ = q.header.clusterSize * (q.header.refcountTableClusters + 1) := by ring
  · rename_i hle
    refine wp_pure ⟨⟨.of_data rfl rfl rfl rfl rfl, h, htable⟩, tableRoom_of_le (hfit.trans ?_)⟩
    exact Nat.mul_le_mul_right _ (by omega)

end Relocate

theorem Sound.table_lt (h : Sound host rs q) (hlimit : host.limit ≤ 2 ^ 54) : ∀ e ∈ q.refcountTable, e < 2 ^ 64 := by
  intro e he
  obtain ⟨i, hi, rfl⟩ := List.getElem_of_mem he
  have hblock : q.block i = q.refcountTable[i] := by
    rw [block, List.getD_eq_getElem?_getD, List.getElem?_eq_getElem hi, Option.getD_some]
  rw [← hblock]
  by_cases hzero : q.block i = 0
  · omega
  · have hin := h.placed.inside (o := .refcountBlock i) (if_neg hzero)
    have hlen := h.lenLimit
    omega

theorem Sound.tableRoom_inside (h : Sound host [] q) (hroom : q.TableRoom) :
    q.header.refcountTableOffset + q.refcountTable.length * 8 ≤ q.file.len := by
  rcases Nat.eq_zero_or_pos q.refcountTable.length with hzero | hpos
  · have := h.tableInside
    have := Nat.le_add_right q.header.refcountTableOffset (q.header.refcountTableClusters * q.header.clusterSize)
    omega
  · obtain ⟨o, off, -, hplace, hlo, hhi⟩ :=
      hroom (q.header.refcountTableOffset + q.refcountTable.length * 8 - 1) (by omega) (by omega)
    have := h.placed.inside hplace
    omega

theorem Sound.writeTable (h : Sound host [] q) (hlimit : host.limit ≤ 2 ^ 54) (hroom : q.TableRoom) :
    Sound host [] (q.wrote q.header.refcountTableOffset (tableBytes q.refcountTable)) ∧
      Quiet (fun o => ¬ o.isRefcount = true) [] q (q.wrote q.header.refcountTableOffset (tableBytes q.refcountTable)) := by
  have hlen := tableBytes_length q.refcountTable
  apply h.write_of_stored (P := fun o => o.isRefcount = true)
  · rw [hlen]
    exact hroom
  · intro hfalse
    cases hfalse
  · intro i hfalse
    cases hfalse
  · intro i
    have hentry : (q.wrote q.header.refcountTableOffset (tableBytes q.refcountTable)).storedTable.getD i 0 =
        if i < q.refcountTable.length ∧ i < q.header.refcountTableClusters * q.header.clusterSize / 8 then q.block i
        else q.storedTable.getD i 0 := tableAt_writeBytes_getD (h.table_lt hlimit) i
    rw [hentry]
    split
    · exact Or.inr rfl
    · exact h.stored i
  · rw [hlen]
    exact h.tableRoom_inside hroom

theorem wp_writeRefcountTable (hlimit : host.limit ≤ 2 ^ 54) (h : Sound host [] q) (htable : TableOk host q) :
    (writeRefcountTable host).Wp (fun _ q' => Grew host q q')
    (fun e q' => e = .refused ∧ host.limit < q'.nextAllocOffset ∧ Grew host q q') q := by
  unfold writeRefcountTable
  apply Wp.seq (wp_growRefcountTable hlimit h htable)
  rintro _ q' ⟨hgrew, hroom⟩
  obtain ⟨hsound, hquiet⟩ := hgrew.sound.writeTable hlimit hroom
  have hin := hgrew.sound.tableRoom_inside hroom
  have hlen := hgrew.sound.lenLimit
  apply wp_get_bind
  apply wp_writeAll (by rw [tableBytes_length]; omega)
  have hmoves : Moves q' (q'.wrote q'.header.refcountTableOffset (tableBytes q'.refcountTable)) := by
    apply Moves.of_frame hquiet.toFrame rfl
    rintro o (ho | rfl) hrefcount
    · cases o with
      | l1 i | l2 i | data g => cases hrefcount
      | header | refcountTable i | refcountBlock i | reserved i => cases ho
    · cases hrefcount
  exact ⟨hgrew.toMoves.trans hmoves h.fits, hsound, ⟨hgrew.tableOk.upper, hgrew.tableOk.lower⟩⟩

end Qcow2File

end CloneVmm.Storage
