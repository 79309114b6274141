import CloneVmm.Boot.Compact
import CloneVmm.Boot.LoadKernel

/-!
`boot/identity.rs` and the agent in the guest: the page that tells a forked VM who it is, and how the agent
reads it.
-/

namespace CloneVmm.Boot.Identity

open CloneVmm.Lib CloneVmm.Boot

def identityMagic : Nat := 0x4E564D49

def identityVersion : Nat := 1

structure VmIdentity where
  vmId : Vector UInt8 16
  hostname : String
  vsockCid : UInt64
  macAddress : Vector UInt8 6
  ipAddress : Vector UInt8 4
  entropySeed : Vector UInt8 32

def macText (mac : List UInt8) : String := String.intercalate ":" (mac.map hexByte)

def ipText (ip : List UInt8) : String := String.intercalate "." (ip.map fun b => toString b.toNat)

def VmIdentity.fields (identity : VmIdentity) : List (Nat × List UInt8) :=
  [(0x000, leBytes 4 identityMagic), (0x004, leBytes 4 identityVersion), (0x008, identity.vmId.toList),
    (0x018, (ascii identity.hostname).take 63), (0x058, leBytes 8 identity.vsockCid.toNat),
    (0x060, identity.macAddress.toList), (0x068, identity.ipAddress.toList), (0x070, identity.entropySeed.toList),
    (0x090, leBytes 4 32)]

def fill (page : List UInt8) (fields : List (Nat × List UInt8)) : List UInt8 :=
  fields.foldl (fun page field => copyFromSlice page field.1 field.2) page

def VmIdentity.toPage (identity : VmIdentity) : List UInt8 := fill (List.replicate 4096 0) identity.fields

def agentMagic : Nat := 0x494D564E

def parseIdentityMac (data : List UInt8) : Option String :=
  if data.length < 0x66 then none
  else if leNat (slice data 0 4) ≠ agentMagic then none
  else if slice data 0x60 6 = [0, 0, 0, 0, 0, 0] then none
  else some (macText (slice data 0x60 6))

def parseIdentityIp (data : List UInt8) : Option String :=
  if data.length < 0x6C then none
  else if leNat (slice data 0 4) ≠ agentMagic then none
  else if slice data 0x68 4 = [0, 0, 0, 0] then none
  else some (ipText (slice data 0x68 4))

def HasMagic (data : List UInt8) : Prop := slice data 0 4 = leBytes 4 identityMagic

def Recognised (data : List UInt8) : Prop :=
  slice data 0 4 = leBytes 4 agentMagic ∧
    ((0x6C ≤ data.length ∧ slice data 0x68 4 ≠ [0, 0, 0, 0]) ∨
      (0x66 ≤ data.length ∧ slice data 0x60 6 ≠ [0, 0, 0, 0, 0, 0]))

section Fill

variable {page : List UInt8} {fields : List (Nat × List UInt8)} {off n : Nat} {data : List UInt8}

theorem slice_getElem? (page : List UInt8) (off n i : Nat) :
    (slice page off n)[i]? = if i < n then page[off + i]? else none := by
  rw [slice, List.getElem?_take, List.getElem?_drop]

theorem slice_copyFromSlice (h : off + data.length ≤ page.length) :
    slice (copyFromSlice page off data) off data.length = data := by
  apply List.ext_getElem?
  intro i
  rw [slice_getElem?]
  split
  · rw [copyFromSlice_getElem? _ _ _ _ h, if_pos (by omega), Nat.add_sub_cancel_left]
  · rw [List.getElem?_eq_none (by omega)]

theorem slice_copyFromSlice_other {off' : Nat} (h : off' + data.length ≤ page.length)
    (hapart : off + n ≤ off' ∨ off' + data.length ≤ off) :
    slice (copyFromSlice page off' data) off n = slice page off n := by
  apply List.ext_getElem?
  intro i
  rw [slice_getElem?, slice_getElem?]
  split
  · rw [copyFromSlice_getElem? _ _ _ _ h, if_neg (by omega)]
  · rfl

theorem fill_length (h : ∀ field ∈ fields, field.1 + field.2.length ≤ page.length) :
    (fill page fields).length = page.length := by
  induction fields generalizing page with
  | nil => rfl
  | cons field fields ih =>
    obtain ⟨hfield, hrest⟩ := List.forall_mem_cons.mp h
    have hlength := copyFromSlice_length page field.1 field.2 hfield
    rw [fill, List.foldl_cons, ← fill, ih (by rw [hlength]; exact hrest), hlength]

theorem slice_fill_other (h : ∀ field ∈ fields, field.1 + field.2.length ≤ page.length)
    (hapart : ∀ field ∈ fields, off + n ≤ field.1) : slice (fill page fields) off n = slice page off n := by
  induction fields generalizing page with
  | nil => rfl
  | cons field fields ih =>
    obtain ⟨hfield, hrest⟩ := List.forall_mem_cons.mp h
    obtain ⟨hbefore, hafter⟩ := List.forall_mem_cons.mp hapart
    have hlength := copyFromSlice_length page field.1 field.2 hfield
    rw [fill, List.foldl_cons, ← fill, ih (by rw [hlength]; exact hrest) hafter,
      slice_copyFromSlice_other hfield (.inl hbefore)]

theorem slice_fill (h : ∀ field ∈ fields, field.1 + field.2.length ≤ page.length)
    (hordered : fields.Pairwise fun f g => f.1 + f.2.length ≤ g.1) {field : Nat × List UInt8} (hmem : field ∈ fields) :
    slice (fill page fields) field.1 field.2.length = field.2 := by
  induction fields generalizing page with
  | nil => cases hmem
  | cons first fields ih =>
    obtain ⟨hfirst, hrest⟩ := List.forall_mem_cons.mp h
    obtain ⟨hbefore, hordered⟩ := List.pairwise_cons.mp hordered
    have hlength := copyFromSlice_length page first.1 first.2 hfirst
    have hrest' : ∀ g ∈ fields, g.1 + g.2.length ≤ (copyFromSlice page first.1 first.2).length := by
      rw [hlength]
      exact hrest
    rw [fill, List.foldl_cons, ← fill]
    rcases List.mem_cons.mp hmem with rfl | hmem
    · rw [slice_fill_other hrest' hbefore, slice_copyFromSlice hfirst]
    · exact ih hrest' hordered hmem

end Fill

section Page

variable (identity : VmIdentity)

theorem hostname_length : ((ascii identity.hostname).take 63).length ≤ 63 := List.length_take_le _ _

theorem fields_fit : ∀ field ∈ identity.fields, field.1 + field.2.length ≤ (List.replicate 4096 (0 : UInt8)).length := by
  have hhostname := hostname_length identity
  simp only [VmIdentity.fields, List.forall_mem_cons, List.length_replicate, leBytes_length, Vector.length_toList]
  refine ⟨by omega, by omega, by omega, by omega, by omega, by omega, by omega, by omega, by omega, ?_⟩
  intro field hfield
  cases hfield

theorem fields_ordered : identity.fields.Pairwise fun f g => f.1 + f.2.length ≤ g.1 := by
  have hhostname := hostname_length identity
  simp only [VmIdentity.fields, List.pairwise_cons, List.forall_mem_cons, leBytes_length, Vector.length_toList]
  simp
  omega

theorem toPage_length : identity.toPage.length = 4096 := by
  rw [VmIdentity.toPage, fill_length (fields_fit identity), List.length_replicate]

theorem toPage_slice {off : Nat} {data : List UInt8} (h : (off, data) ∈ identity.fields) :
    slice identity.toPage off data.length = data := slice_fill (fields_fit identity) (fields_ordered identity) h

theorem toPage_magic : slice identity.toPage 0 4 = leBytes 4 identityMagic := by
  have hmem : (0, leBytes 4 identityMagic) ∈ identity.fields := List.mem_cons_self
  have h := toPage_slice identity hmem
  rwa [leBytes_length] at h

theorem toPage_mac : slice identity.toPage 0x60 6 = identity.macAddress.toList := by
  have hmem : (0x60, identity.macAddress.toList) ∈ identity.fields := by simp [VmIdentity.fields]
  have h := toPage_slice identity hmem
  rwa [Vector.length_toList] at h

theorem toPage_ip : slice identity.toPage 0x68 4 = identity.ipAddress.toList := by
  have hmem : (0x68, identity.ipAddress.toList) ∈ identity.fields := by simp [VmIdentity.fields]
  have h := toPage_slice identity hmem
  rwa [Vector.length_toList] at h

end Page

section Agent

variable {data : List UInt8}

theorem agentMagic_ne : leBytes 4 identityMagic ≠ leBytes 4 agentMagic := by decide

theorem leNat_slice_eq (hlength : 4 ≤ data.length) :
    leNat (slice data 0 4) = agentMagic ↔ slice data 0 4 = leBytes 4 agentMagic := by
  have hslice := leBytes_leNat (slice data 0 4)
  rw [slice_length hlength] at hslice
  constructor
  · intro h
    rw [← h, hslice]
  · intro h
    rw [h, leNat_leBytes]
    decide

theorem parseIdentityMac_eq_none : parseIdentityMac data = none ↔
    ¬ (slice data 0 4 = leBytes 4 agentMagic ∧ 0x66 ≤ data.length ∧ slice data 0x60 6 ≠ [0, 0, 0, 0, 0, 0]) := by
  unfold parseIdentityMac
  split
  · exact iff_of_true rfl fun h => by omega
  · rename_i hlength
    have hiff := @leNat_slice_eq data (by omega)
    split
    · rename_i hmagic
      exact iff_of_true rfl fun h => hmagic (hiff.mpr h.1)
    · rename_i hmagic
      split
      · exact iff_of_true rfl fun h => h.2.2 ‹_›
      · exact iff_of_false (Option.some_ne_none _) fun h => h ⟨hiff.mp (Decidable.not_not.mp hmagic), by omega, ‹_›⟩

theorem parseIdentityIp_eq_none : parseIdentityIp data = none ↔
    ¬ (slice data 0 4 = leBytes 4 agentMagic ∧ 0x6C ≤ data.length ∧ slice data 0x68 4 ≠ [0, 0, 0, 0]) := by
  unfold parseIdentityIp
  split
  · exact iff_of_true rfl fun h => by omega
  · rename_i hlength
    have hiff := @leNat_slice_eq data (by omega)
    split
    · rename_i hmagic
      exact iff_of_true rfl fun h => hmagic (hiff.mpr h.1)
    · rename_i hmagic
      split
      · exact iff_of_true rfl fun h => h.2.2 ‹_›
      · exact iff_of_false (Option.some_ne_none _) fun h => h ⟨hiff.mp (Decidable.not_not.mp hmagic), by omega, ‹_›⟩

theorem recognised_iff : Recognised data ↔ ¬ (parseIdentityIp data = none ∧ parseIdentityMac data = none) := by
  rw [parseIdentityIp_eq_none, parseIdentityMac_eq_none, Recognised]
  tauto

theorem parse_with_agentMagic (identity : VmIdentity) (hip : identity.ipAddress.toList ≠ [0, 0, 0, 0])
    (hmac : identity.macAddress.toList ≠ [0, 0, 0, 0, 0, 0]) :
    parseIdentityIp (copyFromSlice identity.toPage 0 (leBytes 4 agentMagic)) = some (ipText identity.ipAddress.toList) ∧
    parseIdentityMac (copyFromSlice identity.toPage 0 (leBytes 4 agentMagic)) =
      some (macText identity.macAddress.toList) := by
  have hpage := toPage_length identity
  have hfits : 0 + (leBytes 4 agentMagic).length ≤ identity.toPage.length := by
    rw [hpage, leBytes_length]
    omega
  have hlength := copyFromSlice_length _ _ _ hfits
  have hmagic := slice_copyFromSlice hfits
  have hkept : ∀ {off n : Nat}, 4 ≤ off → slice (copyFromSlice identity.toPage 0 (leBytes 4 agentMagic)) off n =
      slice identity.toPage off n := fun h => slice_copyFromSlice_other hfits (.inr h)
  rw [leBytes_length] at hmagic
  have hread : ¬ leNat (leBytes 4 agentMagic) ≠ agentMagic := by decide
  constructor
  · rw [parseIdentityIp, hlength, hpage, hmagic, hkept (by omega), toPage_ip, if_neg (by decide), if_neg hread, if_neg hip]
  · rw [parseIdentityMac, hlength, hpage, hmagic, hkept (by omega), toPage_mac, if_neg (by decide), if_neg hread,
      if_neg hmac]

/-- The agent recognises no page that `to_page` makes, and of the pages without the identity magic it ignores
those that do not have its own. -/
theorem identity_agreement_iff (identity : VmIdentity) (data : List UInt8) :
    ¬ (parseIdentityIp identity.toPage = some (ipText identity.ipAddress.toList) ∧
      parseIdentityMac identity.toPage = some (macText identity.macAddress.toList)) ∧
    ((¬ HasMagic data → parseIdentityIp data = none ∧ parseIdentityMac data = none) ↔ ¬ Recognised data) := by
  constructor
  · intro h
    have hnone : parseIdentityIp identity.toPage = none := by
      rw [parseIdentityIp_eq_none, toPage_magic]
      exact fun h => agentMagic_ne h.1
    rw [hnone] at h
    cases h.1
  · rw [recognised_iff, Decidable.not_not]
    refine ⟨fun h => ?_, fun h _ => h⟩
    by_cases hmagic : HasMagic data
    · have hne : slice data 0 4 ≠ leBytes 4 agentMagic := by
        rw [hmagic]
        exact agentMagic_ne
      exact ⟨parseIdentityIp_eq_none.mpr fun h => hne h.1, parseIdentityMac_eq_none.mpr fun h => hne h.1⟩
    · exact h hmagic

end Agent

def testIdentity : VmIdentity where
  vmId := #v[0x01, 0x02, 0x03, 0x04, 0x05, 0x06, 0x47, 0x08, 0x89, 0x0A, 0x0B, 0x0C, 0x0D, 0x0E, 0x0F, 0x10]
  hostname := "test-vm"
  vsockCid := 42
  macAddress := #v[0x02, 0xAA, 0xBB, 0xCC, 0xDD, 0xEE]
  ipAddress := #v[10, 0, 0, 1]
  entropySeed := Vector.replicate 32 0xFF

def foreignPage : List UInt8 := copyFromSlice testIdentity.toPage 0 (leBytes 4 agentMagic)

theorem identity_agreement_fails :
    testIdentity.ipAddress.toList ≠ [0, 0, 0, 0] ∧ testIdentity.macAddress.toList ≠ [0, 0, 0, 0, 0, 0] ∧
    parseIdentityIp testIdentity.toPage = none ∧ parseIdentityMac testIdentity.toPage = none ∧
    ¬ HasMagic foreignPage ∧ parseIdentityIp foreignPage = some "10.0.0.1" ∧
    parseIdentityMac foreignPage = some "02:aa:bb:cc:dd:ee" := by
  have hip : testIdentity.ipAddress.toList ≠ [0, 0, 0, 0] := by decide
  have hmac : testIdentity.macAddress.toList ≠ [0, 0, 0, 0, 0, 0] := by decide
  have hmagic : slice testIdentity.toPage 0 4 ≠ leBytes 4 agentMagic := by
    rw [toPage_magic]
    exact agentMagic_ne
  have hforeign : slice foreignPage 0 4 = leBytes 4 agentMagic := by
    have hfits : 0 + (leBytes 4 agentMagic).length ≤ testIdentity.toPage.length := by
      rw [toPage_length, leBytes_length]
      omega
    exact slice_copyFromSlice hfits
  obtain ⟨hparseIp, hparseMac⟩ := parse_with_agentMagic testIdentity hip hmac
  refine ⟨hip, hmac, parseIdentityIp_eq_none.mpr fun h => hmagic h.1, parseIdentityMac_eq_none.mpr fun h => hmagic h.1,
    fun h => agentMagic_ne (h.symm.trans hforeign), hparseIp.trans ?_, hparseMac.trans ?_⟩
  · decide
  · decide

end CloneVmm.Boot.Identity
