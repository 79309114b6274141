import CloneVmm.Migration.Precopy

namespace CloneVmm.Migration

open CloneVmm.Lib CloneVmm.Memory CloneVmm.Boot CloneVmm.Control

def overlay (m : ByteStore) (pages : List (Nat × List UInt8)) : ByteStore :=
  pages.foldl (fun m page => writeBytes m page.1 page.2) m

def Phase.inFlight : Phase → ByteStore → ByteStore
  | .encode _ _ pages _ [], m => overlay m pages
  | .encode _ _ pages page (offset :: _), m => writeBytes (overlay m pages) offset page
  | _, m => m

def Phase.pending : Phase → Nat → Prop
  | .clear, _ => True
  | .scan pass pageIdx batch, a =>
    (pageIdx ≤ a / pageSize ∧ pass.marks (a / pageSize)) ∨ a / pageSize * pageSize ∈ batch
  | .probe pageIdx byte batch, a => pageIdx * pageSize + byte ≤ a ∨ a / pageSize * pageSize ∈ batch
  | .encode pass pageIdx _ page todo, a =>
    (pageIdx ≤ a / pageSize ∧ pass.marks (a / pageSize)) ∨
      match todo with
      | [] => False
      | offset :: rest =>
        (a / pageSize * pageSize = offset ∧ page.length ≤ a % pageSize) ∨ a / pageSize * pageSize ∈ rest
  | .converged bitmap, a => pageDirty bitmap (a / pageSize)
  | _, _ => False

def Phase.unsent : Phase → Nat → Prop
  | .clear, _ => True
  | .scan .initial pageIdx _, a => pageIdx * pageSize ≤ a
  | .encode .initial pageIdx _ _ _, a => pageIdx * pageSize ≤ a
  | .probe pageIdx _ _, a => pageIdx * pageSize ≤ a
  | _, _ => False

def Phase.tracked : Phase → Bool
  | .scan (.final _) _ _ | .encode (.final _) _ _ _ _ | .vcpu _ | .device | .awaitAck | .complete
  | .failed _ => false
  | _ => true

def Offsets (pageIdx : Nat) (offsets : List Nat) : Prop :=
  ∀ offset ∈ offsets, ∃ page < pageIdx, offset = page * pageSize

def Phase.WellFormed (totalPages : Nat) : Phase → Prop
  | .scan _ pageIdx batch =>
    pageIdx ≤ totalPages ∧ Offsets pageIdx batch ∧ batch.length < batchSize
  | .probe pageIdx byte batch =>
    pageIdx < totalPages ∧ byte ≤ pageSize ∧ Offsets pageIdx batch ∧ batch.length < batchSize
  | .encode _ pageIdx pages page todo =>
    pageIdx ≤ totalPages ∧ Offsets pageIdx (pages.map Prod.fst) ∧ Offsets pageIdx todo ∧
      (∀ p ∈ pages, p.2.length = pageSize) ∧ page.length ≤ pageSize ∧
      pages.length + todo.length ≤ batchSize
  | _ => True

structure Copy (env : Env) (phase : Phase) (base source : ByteStore) (kvm : DirtyLog) : Prop where
  wf : phase.WellFormed env.vm.totalPages
  unsent : ∀ a, phase.unsent a → phase.inFlight base a = 0
  covered : ∀ a < env.vm.memSize, phase.inFlight base a = source a ∨
    (phase.tracked ∧ kvm.reported (a / pageSize)) ∨ phase.pending a

variable {env : Env} {base source : ByteStore} {kvm : DirtyLog} {pass : Pass} {pageIdx : Nat}
  {batch todo : List Nat} {pages : List (Nat × List UInt8)} {page : List UInt8}

theorem page_split (a : Nat) : a / pageSize * pageSize + a % pageSize = a :=
  Nat.div_add_mod' a pageSize

theorem Offsets.mono {i j : Nat} (hij : i ≤ j) {offsets : List Nat} (h : Offsets i offsets) :
    Offsets j offsets := by
  intro offset hmem
  obtain ⟨p, hp, heq⟩ := h offset hmem
  exact ⟨p, Nat.lt_of_lt_of_le hp hij, heq⟩

theorem Offsets.push (h : Offsets pageIdx batch) :
    Offsets (pageIdx + 1) (batch ++ [pageIdx * pageSize]) := by
  intro offset hmem
  rw [List.mem_append, List.mem_singleton] at hmem
  rcases hmem with hmem | rfl
  · exact h.mono (Nat.le_succ _) offset hmem
  · exact ⟨pageIdx, Nat.lt_succ_self _, rfl⟩

theorem overlay_snoc (m : ByteStore) (pages : List (Nat × List UInt8)) (p : Nat × List UInt8) :
    overlay m (pages ++ [p]) = writeBytes (overlay m pages) p.1 p.2 := by
  simp [overlay]

theorem encode_nil_pending (a : Nat) :
    (Phase.encode pass pageIdx pages [] todo).pending a ↔
      (Phase.scan pass pageIdx todo).pending a := by
  cases todo with
  | nil => simp [Phase.pending]
  | cons offset rest => simp [Phase.pending]

theorem encode_nil_inFlight (m : ByteStore) :
    (Phase.encode pass pageIdx [] [] todo).inFlight m = m := by
  cases todo with
  | nil => rfl
  | cons offset rest => exact writeBytes_nil m offset

theorem encode_tracked : (Phase.encode pass pageIdx pages page todo).tracked =
    (Phase.scan pass pageIdx batch).tracked := by
  cases pass <;> rfl

theorem encode_unsent (a : Nat) : (Phase.encode pass pageIdx pages page todo).unsent a ↔
    (Phase.scan pass pageIdx batch).unsent a := by
  cases pass <;> rfl

theorem Copy.flush (hlen : batch.length ≤ batchSize) (hoff : Offsets pageIdx batch)
    (hidx : pageIdx ≤ env.vm.totalPages)
    (hunsent : ∀ a, (Phase.scan pass pageIdx batch).unsent a → base a = 0)
    (hcovered : ∀ a < env.vm.memSize, base a = source a ∨
      ((Phase.scan pass pageIdx batch).tracked ∧ kvm.reported (a / pageSize)) ∨
      (Phase.scan pass pageIdx batch).pending a) :
    Copy env (.encode pass pageIdx [] [] batch) base source kvm where
  wf := ⟨hidx, by simp [Offsets], hoff, by simp, by simp, by simpa using hlen⟩
  unsent := by
    intro a ha
    rw [encode_nil_inFlight]
    exact hunsent a ((encode_unsent a).mp ha)
  covered := by
    intro a ha
    rw [encode_nil_inFlight, encode_nil_pending, encode_tracked]
    exact hcovered a ha

theorem Copy.pushPage (hlen : batch.length < batchSize) (hoff : Offsets pageIdx batch)
    (hidx : pageIdx < env.vm.totalPages)
    (hunsent : ∀ a, (Phase.scan pass (pageIdx + 1) []).unsent a → base a = 0)
    (hcovered : ∀ a < env.vm.memSize, base a = source a ∨
      ((Phase.scan pass (pageIdx + 1) []).tracked ∧ kvm.reported (a / pageSize)) ∨
      ((pageIdx ≤ a / pageSize ∧ pass.marks (a / pageSize)) ∨ a / pageSize * pageSize ∈ batch)) :
    Copy env (pushPage pass pageIdx batch) base source kvm := by
  have hpending : ∀ a < env.vm.memSize, base a = source a ∨
      ((Phase.scan pass (pageIdx + 1) (batch ++ [pageIdx * pageSize])).tracked ∧
        kvm.reported (a / pageSize)) ∨
      (Phase.scan pass (pageIdx + 1) (batch ++ [pageIdx * pageSize])).pending a := by
    intro a ha
    rcases hcovered a ha with h | h | ⟨hge, hmarks⟩ | hmem
    · exact .inl h
    · refine .inr (.inl ⟨?_, h.2⟩)
      cases pass <;> exact h.1
    · rcases Nat.eq_or_lt_of_le hge with heq | hlt
      · exact .inr (.inr (.inr (by simp [heq])))
      · exact .inr (.inr (.inl ⟨hlt, hmarks⟩))
    · exact .inr (.inr (.inr (List.mem_append_left _ hmem)))
  have hunsent' : ∀ a, (Phase.scan pass (pageIdx + 1) (batch ++ [pageIdx * pageSize])).unsent a →
      base a = 0 := by
    intro a ha
    apply hunsent a
    cases pass <;> exact ha
  rw [Migration.pushPage]
  split
  · exact .flush (by simp; omega) hoff.push hidx hunsent' hpending
  · exact ⟨⟨hidx, hoff.push, by omega⟩, hunsent', hpending⟩

theorem Copy.scan_done (h : Copy env (.scan pass pageIdx []) base source kvm)
    (hidx : env.vm.totalPages ≤ pageIdx) : Copy env pass.next base source kvm where
  wf := by cases pass <;> trivial
  unsent := by cases pass <;> exact fun a ha => ha.elim
  covered := by
    intro a ha
    have hpage := env.vm.lt_totalPages ha
    have hin : pass.next.inFlight base = base := by cases pass <;> rfl
    have htracked : pass.next.tracked = (Phase.scan pass pageIdx []).tracked := by cases pass <;> rfl
    rw [hin, htracked]
    rcases h.covered a ha with h | h | ⟨hge, -⟩ | hmem
    · exact .inl h
    · exact .inr (.inl h)
    · omega
    · cases hmem

theorem Copy.scan_clean (h : Copy env (.scan pass pageIdx batch) base source kvm)
    (hidx : pageIdx < env.vm.totalPages) (hclean : pass.marks pageIdx = false) :
    Copy env (.scan pass (pageIdx + 1) batch) base source kvm where
  wf := ⟨hidx, h.wf.2.1.mono (Nat.le_succ _), h.wf.2.2⟩
  unsent := by
    cases pass with
    | initial => cases hclean
    | round n bitmap => exact fun a ha => ha.elim
    | final bitmap => exact fun a ha => ha.elim
  covered := by
    intro a ha
    have htracked : (Phase.scan pass (pageIdx + 1) batch).tracked =
        (Phase.scan pass pageIdx batch).tracked := by cases pass <;> rfl
    rw [htracked]
    rcases h.covered a ha with h | h | ⟨hge, hmarks⟩ | hmem
    · exact .inl h
    · exact .inr (.inl h)
    · have hne : pageIdx ≠ a / pageSize := by
        intro heq
        rw [← heq, hclean] at hmarks
        cases hmarks
      exact .inr (.inr (.inl ⟨by omega, hmarks⟩))
    · exact .inr (.inr (.inr hmem))

theorem Copy.scan_dirty (h : Copy env (.scan pass pageIdx batch) base source kvm)
    (hpass : pass ≠ .initial) (hidx : pageIdx < env.vm.totalPages) :
    Copy env (Migration.pushPage pass pageIdx batch) base source kvm := by
  refine .pushPage h.wf.2.2 h.wf.2.1 hidx ?_ ?_
  · cases pass with
    | initial => exact absurd rfl hpass
    | round n bitmap => exact fun a ha => ha.elim
    | final bitmap => exact fun a ha => ha.elim
  · have htracked : (Phase.scan pass (pageIdx + 1) []).tracked =
        (Phase.scan pass pageIdx batch).tracked := by cases pass <;> rfl
    rw [htracked]
    exact h.covered

theorem Copy.scan_probe (h : Copy env (.scan .initial pageIdx batch) base source kvm)
    (hidx : pageIdx < env.vm.totalPages) : Copy env (.probe pageIdx 0 batch) base source kvm where
  wf := ⟨hidx, Nat.zero_le _, h.wf.2⟩
  unsent := h.unsent
  covered := by
    intro a ha
    rcases h.covered a ha with h | h | ⟨hge, -⟩ | hmem
    · exact .inl h
    · exact .inr (.inl h)
    · have hstart : pageIdx * pageSize ≤ a := (Nat.le_div_iff_mul_le pageSize_pos).mp hge
      exact .inr (.inr (.inl (by rwa [Nat.add_zero])))
    · exact .inr (.inr (.inr hmem))

theorem Copy.probe_zero {byte : Nat} (h : Copy env (.probe pageIdx byte batch) base source kvm)
    (hbyte : byte < pageSize) (hzero : source (pageIdx * pageSize + byte) = 0) :
    Copy env (.probe pageIdx (byte + 1) batch) base source kvm where
  wf := ⟨h.wf.1, hbyte, h.wf.2.2⟩
  unsent := h.unsent
  covered := by
    intro a ha
    rcases h.covered a ha with h' | h' | hge | hmem
    · exact .inl h'
    · exact .inr (.inl h')
    · rcases Nat.eq_or_lt_of_le hge with rfl | hlt
      · refine .inl ?_
        rw [hzero]
        exact h.unsent _ (Nat.le_add_right _ _)
      · exact .inr (.inr (.inl hlt))
    · exact .inr (.inr (.inr hmem))

theorem Copy.probe_nonzero {byte : Nat} (h : Copy env (.probe pageIdx byte batch) base source kvm) :
    Copy env (Migration.pushPage .initial pageIdx batch) base source kvm := by
  refine .pushPage h.wf.2.2.2 h.wf.2.2.1 h.wf.1 ?_ ?_
  · intro a ha
    refine h.unsent a ?_
    simp only [Phase.unsent] at ha ⊢
    exact Nat.le_trans (Nat.mul_le_mul_right _ (Nat.le_succ _)) ha
  · intro a ha
    rcases h.covered a ha with h' | h' | hge | hmem
    · exact .inl h'
    · exact .inr (.inl h')
    · refine .inr (.inr (.inl ⟨?_, rfl⟩))
      exact (Nat.le_div_iff_mul_le pageSize_pos).mpr (Nat.le_trans (Nat.le_add_right _ _) hge)
    · exact .inr (.inr (.inr hmem))

theorem Copy.probe_end {byte : Nat} (h : Copy env (.probe pageIdx byte batch) base source kvm)
    (hbyte : pageSize ≤ byte) : Copy env (.scan .initial (pageIdx + 1) batch) base source kvm where
  wf := ⟨h.wf.1, h.wf.2.2.1.mono (Nat.le_succ _), h.wf.2.2.2⟩
  unsent := by
    intro a ha
    refine h.unsent a ?_
    simp only [Phase.unsent] at ha ⊢
    exact Nat.le_trans (Nat.mul_le_mul_right _ (Nat.le_succ _)) ha
  covered := by
    intro a ha
    rcases h.covered a ha with h' | h' | hge | hmem
    · exact .inl h'
    · exact .inr (.inl h')
    · refine .inr (.inr (.inl ⟨?_, rfl⟩))
      apply (Nat.le_div_iff_mul_le pageSize_pos).mpr
      rw [Nat.succ_mul]
      omega
    · exact .inr (.inr (.inr hmem))

theorem Copy.encode_byte {offset : Nat} {rest : List Nat}
    (h : Copy env (.encode pass pageIdx pages page (offset :: rest)) base source kvm)
    (hlen : page.length < pageSize) :
    Copy env (.encode pass pageIdx pages (page ++ [source (offset + page.length)]) (offset :: rest))
      base source kvm := by
  obtain ⟨hidx, hdone, htodo, hpages, -, hcount⟩ := h.wf
  obtain ⟨p, hp, hoffset⟩ := htodo offset List.mem_cons_self
  refine ⟨⟨hidx, hdone, htodo, hpages, by simp; omega, hcount⟩, ?_, ?_⟩
  · intro a ha
    have hbelow : a ≠ offset + page.length := by
      have hlt : (p + 1) * pageSize ≤ pageIdx * pageSize := Nat.mul_le_mul_right _ hp
      rw [Nat.succ_mul] at hlt
      cases pass with
      | initial => simp only [Phase.unsent] at ha; omega
      | round n bitmap => exact ha.elim
      | final bitmap => exact ha.elim
    simp only [Phase.inFlight, writeBytes_snoc, if_neg hbelow]
    refine h.unsent a ?_
    cases pass <;> exact ha
  · intro a ha
    have htracked : (Phase.encode pass pageIdx pages (page ++ [source (offset + page.length)])
        (offset :: rest)).tracked = (Phase.encode pass pageIdx pages page (offset :: rest)).tracked := by
      cases pass <;> rfl
    simp only [Phase.inFlight, writeBytes_snoc]
    by_cases heq : a = offset + page.length
    · exact .inl (by rw [if_pos heq, heq])
    · rw [if_neg heq, htracked]
      rcases h.covered a ha with h' | h' | h' | ⟨hpage, hge⟩ | hmem
      · exact .inl h'
      · exact .inr (.inl h')
      · exact .inr (.inr (.inl h'))
      · have hsplit := page_split a
        exact .inr (.inr (.inr (.inl ⟨hpage, by simp; omega⟩)))
      · exact .inr (.inr (.inr (.inr hmem)))

theorem Copy.encode_page {offset : Nat} {rest : List Nat}
    (h : Copy env (.encode pass pageIdx pages page (offset :: rest)) base source kvm)
    (hlen : pageSize ≤ page.length) :
    Copy env (.encode pass pageIdx (pages ++ [(offset, page)]) [] rest) base source kvm := by
  obtain ⟨hidx, hdone, htodo, hpages, hle, hcount⟩ := h.wf
  have hfull : page.length = pageSize := Nat.le_antisymm hle hlen
  have hin : (Phase.encode pass pageIdx (pages ++ [(offset, page)]) [] rest).inFlight base =
      (Phase.encode pass pageIdx pages page (offset :: rest)).inFlight base := by
    cases rest with
    | nil => exact overlay_snoc base pages (offset, page)
    | cons next rest =>
      simp only [Phase.inFlight, writeBytes_nil]
      exact overlay_snoc base pages (offset, page)
  refine ⟨⟨hidx, ?_, ?_, ?_, by simp, ?_⟩, ?_, ?_⟩
  · intro o ho
    simp only [List.map_append, List.map_cons, List.map_nil, List.mem_append, List.mem_singleton] at ho
    rcases ho with ho | rfl
    · exact hdone o ho
    · exact htodo o List.mem_cons_self
  · exact fun o ho => htodo o (List.mem_cons_of_mem _ ho)
  · intro q hq
    rw [List.mem_append, List.mem_singleton] at hq
    rcases hq with hq | rfl
    · exact hpages q hq
    · exact hfull
  · simp only [List.length_append, List.length_cons, List.length_nil] at hcount ⊢
    omega
  · intro a ha
    rw [hin]
    refine h.unsent a ?_
    cases pass <;> exact ha
  · intro a ha
    rw [hin, encode_nil_pending]
    have htracked : (Phase.encode pass pageIdx (pages ++ [(offset, page)]) [] rest).tracked =
        (Phase.encode pass pageIdx pages page (offset :: rest)).tracked := by cases pass <;> rfl
    rw [htracked]
    rcases h.covered a ha with h' | h' | h' | ⟨-, hge⟩ | hmem
    · exact .inl h'
    · exact .inr (.inl h')
    · exact .inr (.inr (.inl h'))
    · have hlt : a % pageSize < pageSize := Nat.mod_lt _ pageSize_pos
      omega
    · exact .inr (.inr (.inr hmem))

theorem Copy.encode_sent (h : Copy env (.encode pass pageIdx pages page []) base source kvm) :
    Copy env (.scan pass pageIdx []) (overlay base pages) source kvm where
  wf := ⟨h.wf.1, by simp [Offsets], by decide⟩
  unsent := fun a ha => h.unsent a ((encode_unsent a).mpr ha)
  covered := by
    intro a ha
    have htracked : (Phase.scan pass pageIdx []).tracked =
        (Phase.encode pass pageIdx pages page []).tracked := encode_tracked.symm
    rw [htracked]
    rcases h.covered a ha with h' | h' | h' | h'
    · exact .inl h'
    · exact .inr (.inl h')
    · exact .inr (.inr (.inl h'))
    · exact h'.elim

theorem getDirtyBitmap_marks (env : Env) (kvm : DirtyLog) {a : Nat} (ha : a < env.vm.memSize)
    (hrep : kvm.reported (a / pageSize)) : pageDirty (env.vm.getDirtyBitmap kvm).1 (a / pageSize) := by
  rw [env.vm.pageDirty_getDirtyBitmap kvm (env.vm.lt_totalPages ha)]
  exact hrep

theorem Copy.fetch_round {round : Nat} (h : Copy env (.fetch round) base source kvm) :
    Copy env (.scan (.round round (env.vm.getDirtyBitmap kvm).1) 0 []) base source
      (env.vm.getDirtyBitmap kvm).2 where
  wf := ⟨Nat.zero_le _, by simp [Offsets], by decide⟩
  unsent := fun a ha => ha.elim
  covered := by
    intro a ha
    rcases h.covered a ha with h | ⟨-, hrep⟩ | h
    · exact .inl h
    · exact .inr (.inr (.inl ⟨Nat.zero_le _, getDirtyBitmap_marks env kvm ha hrep⟩))
    · exact h.elim

theorem Copy.fetch_converged {round : Nat} (h : Copy env (.fetch round) base source kvm) :
    Copy env (.converged (env.vm.getDirtyBitmap kvm).1) base source (env.vm.getDirtyBitmap kvm).2 where
  wf := trivial
  unsent := fun a ha => ha.elim
  covered := by
    intro a ha
    rcases h.covered a ha with h | ⟨-, hrep⟩ | h
    · exact .inl h
    · exact .inr (.inr (getDirtyBitmap_marks env kvm ha hrep))
    · exact h.elim

theorem Copy.pause {bitmap : List UInt8} (h : Copy env (.converged bitmap) base source kvm)
    (hlost : ∀ page < env.vm.totalPages, pageDirty bitmap page → kvm.reported page) :
    Copy env .paused base source kvm where
  wf := trivial
  unsent := fun a ha => ha.elim
  covered := by
    intro a ha
    rcases h.covered a ha with h | h | h
    · exact .inl h
    · exact .inr (.inl h)
    · exact .inr (.inl ⟨rfl, hlost _ (env.vm.lt_totalPages ha) h⟩)

theorem Copy.final_fetch (h : Copy env .paused base source kvm) (kvm' : DirtyLog) :
    Copy env (.scan (.final (env.vm.getDirtyBitmap kvm).1) 0 []) base source kvm' where
  wf := ⟨Nat.zero_le _, by simp [Offsets], by decide⟩
  unsent := fun a ha => ha.elim
  covered := by
    intro a ha
    rcases h.covered a ha with h | ⟨-, hrep⟩ | h
    · exact .inl h
    · exact .inr (.inr (.inl ⟨Nat.zero_le _, getDirtyBitmap_marks env kvm ha hrep⟩))
    · exact h.elim

theorem Copy.start_initial (h : Copy env .clear base source kvm) (kvm' : DirtyLog) :
    Copy env (.scan .initial 0 []) base source kvm' where
  wf := ⟨Nat.zero_le _, by simp [Offsets], by decide⟩
  unsent := fun a _ => h.unsent a trivial
  covered := fun _ _ => .inr (.inr (.inl ⟨Nat.zero_le _, rfl⟩))

theorem Copy.guest_write {phase : Phase} (h : Copy env phase base source kvm)
    (htracked : phase.tracked) (addr : Nat) (value : UInt8)
    (hlogged : addr < env.vm.memSize → addr / pageSize < kvm.slot0Pages ∨ phase.pending addr) :
    Copy env phase base (writeBytes source addr [value]) (kvm.mark (addr / pageSize)) where
  wf := h.wf
  unsent := h.unsent
  covered := by
    intro a ha
    rw [writeBytes_single]
    by_cases heq : a = addr
    · subst heq
      rcases hlogged ha with hslot | hpending
      · refine .inr (.inl ⟨htracked, ?_⟩)
        simp [DirtyLog.reported, DirtyLog.mark, hslot]
      · exact .inr (.inr hpending)
    · rw [if_neg heq]
      rcases h.covered a ha with h | ⟨-, hrep⟩ | h
      · exact .inl h
      · refine .inr (.inl ⟨htracked, ?_⟩)
        simp only [DirtyLog.reported, DirtyLog.mark, Bool.and_eq_true, Bool.or_eq_true] at hrep ⊢
        exact ⟨hrep.1, .inr hrep.2⟩
      · exact .inr (.inr h)

theorem Copy.untracked {phase : Phase} (h : Copy env phase base source kvm)
    (htracked : phase.tracked = false) (kvm' : DirtyLog) : Copy env phase base source kvm' where
  wf := h.wf
  unsent := h.unsent
  covered := by
    intro a ha
    rcases h.covered a ha with h | ⟨h, -⟩ | h
    · exact .inl h
    · rw [htracked] at h; cases h
    · exact .inr (.inr h)

theorem Copy.settled {phase : Phase} (h : Copy env phase base source kvm) (phase' : Phase)
    (htracked : phase.tracked = false) (hpending : ∀ a, ¬ phase.pending a)
    (hin : phase.inFlight base = base) (hwf : phase'.WellFormed env.vm.totalPages)
    (hunsent : ∀ a, ¬ phase'.unsent a) (hin' : phase'.inFlight base = base) :
    Copy env phase' base source kvm where
  wf := hwf
  unsent := fun a ha => (hunsent a ha).elim
  covered := by
    intro a ha
    rcases h.covered a ha with h | ⟨h, -⟩ | h
    · exact .inl (by rw [hin', ← h, hin])
    · rw [htracked] at h; cases h
    · exact (hpending a h).elim

end CloneVmm.Migration
