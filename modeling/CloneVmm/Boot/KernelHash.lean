import CloneVmm.Boot.Measured
import CloneVmm.Lib.JsonText

namespace CloneVmm.Boot.KernelVerifier

open CloneVmm.Lib Measured

inductive Fault
  | error (message : String)
  | panic
  deriving DecidableEq

def context {α : Type} (text : String) : Except Fault α → Except Fault α
  | .error (.error e) => .error (.error s!"{text}: {e}")
  | r => r

def isContinuation (b : UInt8) : Bool := decide (0x80 ≤ b) && decide (b < 0xC0)

def hexPieces (i : Nat) : List UInt8 → Except Fault (List UInt8)
  | a :: b :: rest =>
    if rest.head?.any isContinuation then .error .panic
    else
      match fromStrRadix a b with
      | none => .error (.error s!"Invalid hex at position {i}")
      | some byte => (hexPieces (i + 2) rest).map (byte :: ·)
  | _ => .ok []

def hexDecode (hex : String) : Except Fault (List UInt8) :=
  if (ascii hex).length % 2 ≠ 0 then .error (.error "Hex string has odd length") else hexPieces 0 (ascii hex)

def fromHex (hex : String) : Except Fault (List UInt8) := do
  let bytes ← context "Invalid hex string for kernel hash" (hexDecode hex)
  if bytes.length ≠ 32 then throw (.error s!"Expected 32-byte SHA-256 hash, got {bytes.length} bytes")
  return bytes

def IsHexDigit (c : Char) : Prop := (JsonText.hexValue c).isSome

instance (c : Char) : Decidable (IsHexDigit c) := inferInstanceAs (Decidable (_ = true))

def HexHash (hex : String) : Prop := hex.toList.length = 64 ∧ ∀ c ∈ hex.toList, IsHexDigit c

def denoted : List Char → List UInt8
  | c :: d :: cs =>
    UInt8.ofNat (16 * (JsonText.hexValue c).getD 0 + (JsonText.hexValue d).getD 0) :: denoted cs
  | _ => []

structure HexExact (hex : String) : Prop where
  accepts : HexHash hex → fromHex hex = .ok (denoted hex.toList)
  refuses : ¬ HexHash hex → ∃ e, fromHex hex = .error (.error e)

def IsPiece (c d : Char) : Prop := (c = '+' ∨ IsHexDigit c) ∧ IsHexDigit d

inductive Pieces : List Char → Prop
  | nil : Pieces []
  | cons {c d : Char} {cs : List Char} : IsPiece c d → Pieces cs → Pieces (c :: d :: cs)

def CutsNext : List Char → Prop
  | [] => False
  | c :: cs => 0x800 ≤ c.toNat ∨ c.toNat < 0x80 ∧ ∃ d, cs.head? = some d ∧ 0x80 ≤ d.toNat

inductive Straddles : List Char → Prop
  | here {cs : List Char} : CutsNext cs → Straddles cs
  | later {c d : Char} {cs : List Char} : IsPiece c d → Straddles cs → Straddles (c :: d :: cs)

def Signed (hex : String) : Prop := hex.toList.length = 64 ∧ Pieces hex.toList ∧ '+' ∈ hex.toList

abbrev encode (cs : List Char) : List UInt8 := cs.flatMap String.utf8EncodeChar

theorem ascii_eq (s : String) : ascii s = encode s.toList := by
  have henc := congrArg ByteArray.data (String.utf8Encode_toList (b := s))
  rw [List.utf8Encode, List.data_toByteArray] at henc
  simpa [ascii] using (congrArg Array.toList henc).symm

theorem encodeChar_small {c : Char} (h : c.toNat < 0x80) : String.utf8EncodeChar c = [UInt8.ofNat c.toNat] := by
  rw [String.utf8EncodeChar]
  exact if_pos (Nat.le_of_lt_succ h)

theorem isContinuation_ofNat (n : Nat) : isContinuation (UInt8.ofNat (n % 0x40 + 0x80)) = true := by
  simp only [isContinuation, Bool.and_eq_true, decide_eq_true_eq, UInt8.le_iff_toNat_le, UInt8.lt_iff_toNat_lt,
    UInt8.toNat_ofNat', UInt8.reduceToNat]
  omega

theorem lead_le {n : Nat} (h : 0xC0 ≤ n) (h' : n < 0x100) : 0xC0 ≤ (UInt8.ofNat n).toNat := by
  rw [UInt8.toNat_ofNat']
  omega

theorem encodeChar_two {c : Char} (h : 0x80 ≤ c.toNat) (h' : c.toNat < 0x800) :
    ∃ a b, String.utf8EncodeChar c = [a, b] ∧ 0xC0 ≤ a.toNat := by
  have hval : c.val.toNat = c.toNat := rfl
  refine ⟨UInt8.ofNat (c.toNat / 64 % 0x20 + 0xC0), UInt8.ofNat (c.toNat % 0x40 + 0x80), ?_, ?_⟩
  · rw [String.utf8EncodeChar]
    simp only [hval, if_neg (show ¬ c.toNat ≤ 0x7f by omega), if_pos (Nat.le_of_lt_succ h')]
  · exact lead_le (by omega) (by omega)

theorem encodeChar_three {c : Char} (h : 0x800 ≤ c.toNat) :
    ∃ a b d rest, String.utf8EncodeChar c = a :: b :: d :: rest ∧ isContinuation d = true := by
  have hval : c.val.toNat = c.toNat := rfl
  rw [String.utf8EncodeChar]
  simp only [hval, if_neg (show ¬ c.toNat ≤ 0x7f by omega), if_neg (show ¬ c.toNat ≤ 0x7ff by omega)]
  split
  · exact ⟨_, _, _, _, rfl, isContinuation_ofNat _⟩
  · exact ⟨_, _, _, _, rfl, isContinuation_ofNat _⟩

theorem encodeChar_wide {d : Char} (h : 0x80 ≤ d.toNat) :
    ∃ a b rest, String.utf8EncodeChar d = a :: b :: rest ∧ isContinuation b = true := by
  have hval : d.val.toNat = d.toNat := rfl
  rw [String.utf8EncodeChar]
  simp only [hval, if_neg (show ¬ d.toNat ≤ 0x7f by omega)]
  split
  · exact ⟨_, _, _, rfl, isContinuation_ofNat _⟩
  · split
    · exact ⟨_, _, _, rfl, isContinuation_ofNat _⟩
    · exact ⟨_, _, _, rfl, isContinuation_ofNat _⟩

theorem head_encode (cs : List Char) : (encode cs).head?.any isContinuation = false := by
  cases cs with
  | nil => rfl
  | cons c cs =>
    have hval : c.val.toNat = c.toNat := rfl
    have hsmall : ∀ n, n < 0x80 ∨ 0xC0 ≤ n → n < 0x100 → isContinuation (UInt8.ofNat n) = false := by
      intro n hn hlt
      simp only [isContinuation, Bool.and_eq_false_iff, decide_eq_false_iff_not, UInt8.le_iff_toNat_le,
        UInt8.lt_iff_toNat_lt, UInt8.toNat_ofNat', UInt8.reduceToNat]
      omega
    rw [encode, List.flatMap_cons, String.utf8EncodeChar]
    simp only [hval]
    split
    · exact hsmall _ (.inl (by omega)) (by omega)
    · split
      · exact hsmall _ (.inr (by omega)) (by omega)
      · split
        · exact hsmall _ (.inr (by omega)) (by omega)
        · exact hsmall _ (.inr (by omega)) (by omega)

theorem hexDigit_eq {c : Char} (h : c.toNat < 0x80) : hexDigit (UInt8.ofNat c.toNat) = JsonText.hexValue c := by
  have hall : ∀ n < 0x80, hexDigit (UInt8.ofNat n) = JsonText.hexValue (Char.ofNat n) := by decide
  have hc := hall c.toNat h
  rwa [Char.ofNat_toNat] at hc

theorem IsHexDigit.toNat_lt {c : Char} (h : IsHexDigit c) : c.toNat < 0x80 := by
  by_contra hwide
  have hdigit : c.isDigit = false := by
    rw [Bool.eq_false_iff]
    intro hc
    have hle : c.toNat ≤ 57 := (Char.isDigit_iff_toNat.mp hc).2
    omega
  have hlower : ¬ ('a' ≤ c ∧ c ≤ 'f') := by
    rintro ⟨-, hc⟩
    have hle : c.toNat ≤ 102 := hc
    omega
  have hupper : ¬ ('A' ≤ c ∧ c ≤ 'F') := by
    rintro ⟨-, hc⟩
    have hle : c.toNat ≤ 70 := hc
    omega
  rw [IsHexDigit, JsonText.hexValue, hdigit, if_neg Bool.false_ne_true, if_neg hlower, if_neg hupper] at h
  cases h

theorem ascii_plus {c : Char} (h : c.toNat < 0x80) : UInt8.ofNat c.toNat = 43 ↔ c = '+' := by
  constructor
  · intro heq
    have hn := congrArg UInt8.toNat heq
    rw [UInt8.toNat_ofNat_of_lt' (by simp only [UInt8.size]; omega)] at hn
    rw [← Char.ofNat_toNat c, hn]
    rfl
  · rintro rfl
    rfl

theorem IsPiece.small {c d : Char} (h : IsPiece c d) : c.toNat < 0x80 ∧ d.toNat < 0x80 := by
  refine ⟨?_, h.2.toNat_lt⟩
  rcases h.1 with rfl | hc
  · decide
  · exact hc.toNat_lt

theorem Pieces.small {cs : List Char} (h : Pieces cs) : ∀ c ∈ cs, c.toNat < 0x80 := by
  induction h with
  | nil => exact fun c hc => absurd hc List.not_mem_nil
  | cons hpiece _ ih =>
    rw [List.forall_mem_cons, List.forall_mem_cons]
    exact ⟨hpiece.small.1, hpiece.small.2, ih⟩

theorem Straddles.wide {cs : List Char} (h : Straddles cs) : ∃ c ∈ cs, 0x80 ≤ c.toNat := by
  induction h with
  | @here cs hcut =>
    cases cs with
    | nil => exact absurd hcut id
    | cons c cs =>
      rcases hcut with hc | ⟨-, d, hd, hwide⟩
      · exact ⟨c, List.mem_cons_self, by omega⟩
      · exact ⟨d, List.mem_cons_of_mem _ (List.mem_of_mem_head? hd), hwide⟩
  | later _ _ ih =>
    obtain ⟨c, hc, hwide⟩ := ih
    exact ⟨c, List.mem_cons_of_mem _ (List.mem_cons_of_mem _ hc), hwide⟩

theorem Pieces.not_straddles {cs : List Char} (h : Pieces cs) : ¬ Straddles cs := by
  intro hs
  obtain ⟨c, hc, hwide⟩ := hs.wide
  exact absurd (h.small c hc) (Nat.not_lt.mpr hwide)

theorem fromStrRadix_piece {c d : Char} (hc : c.toNat < 0x80) (hd : d.toNat < 0x80) (h : IsPiece c d) :
    fromStrRadix (UInt8.ofNat c.toNat) (UInt8.ofNat d.toNat) =
      some (UInt8.ofNat (16 * (JsonText.hexValue c).getD 0 + (JsonText.hexValue d).getD 0)) := by
  obtain ⟨hfirst, hsecond⟩ := h
  obtain ⟨lo, hlo⟩ := Option.isSome_iff_exists.mp hsecond
  rw [fromStrRadix, hexDigit_eq hc, hexDigit_eq hd, hlo]
  by_cases hplus : c = '+'
  · have hnone : JsonText.hexValue '+' = none := rfl
    rw [if_pos ((ascii_plus hc).mpr hplus), hplus, hnone]
    simp
  · obtain ⟨hi, hhi⟩ := Option.isSome_iff_exists.mp (hfirst.resolve_left hplus)
    rw [if_neg (mt (ascii_plus hc).mp hplus), hhi]
    rfl

theorem fromStrRadix_not_piece {c d : Char} (hc : c.toNat < 0x80) (hd : d.toNat < 0x80) (h : ¬ IsPiece c d) :
    fromStrRadix (UInt8.ofNat c.toNat) (UInt8.ofNat d.toNat) = none := by
  rw [fromStrRadix, hexDigit_eq hc, hexDigit_eq hd]
  simp only [IsPiece, IsHexDigit, not_and, Bool.not_eq_true, Option.isSome_eq_false_iff, Option.isNone_iff_eq_none] at h
  by_cases hplus : c = '+'
  · rw [if_pos ((ascii_plus hc).mpr hplus), h (.inl hplus)]
    rfl
  · rw [if_neg (mt (ascii_plus hc).mp hplus)]
    cases hhi : JsonText.hexValue c with
    | none => rfl
    | some hi =>
      rw [h (.inr (Option.isSome_of_eq_some hhi))]
      rfl

theorem fromStrRadix_high {a b : UInt8} (h : 0x80 ≤ a.toNat) : fromStrRadix a b = none := by
  have hplus : a ≠ 43 := by
    rintro rfl
    exact absurd h (by decide)
  have hdigit : hexDigit a = none := by
    simp only [hexDigit]
    rw [if_neg (by omega), if_neg (by omega), if_neg (by omega)]
  rw [fromStrRadix, if_neg hplus, hdigit]
  rfl

theorem hexPieces_small (i : Nat) {c d : Char} (cs : List Char) (hc : c.toNat < 0x80) (hd : d.toNat < 0x80) :
    hexPieces i (encode (c :: d :: cs)) =
      match fromStrRadix (UInt8.ofNat c.toNat) (UInt8.ofNat d.toNat) with
      | none => .error (.error s!"Invalid hex at position {i}")
      | some byte => (hexPieces (i + 2) (encode cs)).map (byte :: ·) := by
  have hbytes : encode (c :: d :: cs) = UInt8.ofNat c.toNat :: UInt8.ofNat d.toNat :: encode cs := by
    rw [encode, List.flatMap_cons, List.flatMap_cons, encodeChar_small hc, encodeChar_small hd]
    rfl
  rw [hbytes, hexPieces, head_encode, if_neg Bool.false_ne_true]

theorem hexPieces_cut (i : Nat) {cs : List Char} (h : CutsNext cs) : hexPieces i (encode cs) = .error .panic := by
  cases cs with
  | nil => exact absurd h id
  | cons c cs =>
    rcases h with hwide | ⟨hc, d, hd, hwide⟩
    · obtain ⟨a, b, e, rest, henc, hcont⟩ := encodeChar_three hwide
      rw [encode, List.flatMap_cons, henc]
      simp only [List.cons_append, hexPieces, List.head?_cons, Option.any_some, hcont, if_true]
    · obtain ⟨cs', rfl⟩ := List.head?_eq_some_iff.mp hd
      obtain ⟨a, b, rest, henc, hcont⟩ := encodeChar_wide hwide
      rw [encode, List.flatMap_cons, List.flatMap_cons, encodeChar_small hc, henc]
      simp only [List.cons_append, List.nil_append, hexPieces, List.head?_cons, Option.any_some, hcont, if_true]

theorem hexPieces_two (i : Nat) {c : Char} (cs : List Char) (h : 0x80 ≤ c.toNat) (h' : c.toNat < 0x800) :
    hexPieces i (encode (c :: cs)) = .error (.error s!"Invalid hex at position {i}") := by
  obtain ⟨a, b, henc, hlead⟩ := encodeChar_two h h'
  have hbytes : encode (c :: cs) = a :: b :: encode cs := by
    rw [encode, List.flatMap_cons, henc]
    rfl
  rw [hbytes, hexPieces, head_encode, if_neg Bool.false_ne_true, fromStrRadix_high (by omega)]

theorem hexPieces_encode (i : Nat) (cs : List Char) (heven : (encode cs).length % 2 = 0) :
    Pieces cs ∧ hexPieces i (encode cs) = .ok (denoted cs) ∨
      ¬ Pieces cs ∧ ¬ Straddles cs ∧ (∃ e, hexPieces i (encode cs) = .error (.error e)) ∨
      Straddles cs ∧ hexPieces i (encode cs) = .error .panic := by
  match cs with
  | [] => exact .inl ⟨.nil, rfl⟩
  | c :: cs =>
    by_cases hcut : CutsNext (c :: cs)
    · exact .inr (.inr ⟨.here hcut, hexPieces_cut i hcut⟩)
    · simp only [CutsNext, not_or, not_and, not_exists, Nat.not_le] at hcut
      obtain ⟨hthree, hnext⟩ := hcut
      by_cases hc : c.toNat < 0x80
      · cases cs with
        | nil =>
          rw [encode, List.flatMap_cons, encodeChar_small hc] at heven
          exact absurd heven Nat.one_ne_zero
        | cons d cs =>
          have hd : d.toNat < 0x80 := hnext hc d rfl
          have hrest : (encode cs).length % 2 = 0 := by
            rw [encode, List.flatMap_cons, List.flatMap_cons, encodeChar_small hc, encodeChar_small hd] at heven
            simp only [List.length_append, List.length_singleton] at heven
            rw [encode]
            omega
          rw [hexPieces_small i cs hc hd]
          by_cases hpiece : IsPiece c d
          · rw [fromStrRadix_piece hc hd hpiece]
            rcases hexPieces_encode (i + 2) cs hrest with ⟨hps, hok⟩ | ⟨hps, hs, e, he⟩ | ⟨hs, hpanic⟩
            · refine .inl ⟨.cons hpiece hps, ?_⟩
              rw [hok]
              rfl
            · refine .inr (.inl ⟨?_, ?_, e, ?_⟩)
              · rintro ⟨⟩
                contradiction
              · intro h
                cases h with
                | here hcut => exact absurd (hcut.resolve_left (by omega)).2 (by simpa using hd)
                | later _ hs' => exact hs hs'
              · rw [he]
                rfl
            · refine .inr (.inr ⟨.later hpiece hs, ?_⟩)
              rw [hpanic]
              rfl
          · rw [fromStrRadix_not_piece hc hd hpiece]
            refine .inr (.inl ⟨?_, ?_, _, rfl⟩)
            · rintro ⟨⟩
              contradiction
            · intro h
              cases h with
              | here hcut => exact absurd (hcut.resolve_left (by omega)).2 (by simpa using hd)
              | later hpiece' _ => exact hpiece hpiece'
      · -- a character of two bytes fills the slice, and no digit has its first byte
        have hwide : 0x80 ≤ c.toNat := Nat.not_lt.mp hc
        refine .inr (.inl ⟨?_, ?_, _, hexPieces_two i cs hwide hthree⟩)
        · intro h
          exact hc (h.small c List.mem_cons_self)
        · intro h
          cases h with
          | here hcut => exact hc (hcut.resolve_left (by omega)).1
          | later hpiece _ => exact hc hpiece.small.1

theorem denoted_length {cs : List Char} (h : Pieces cs) : (denoted cs).length * 2 = cs.length := by
  induction h with
  | nil => rfl
  | cons _ _ ih =>
    simp only [denoted, List.length_cons]
    omega

theorem pieces_of_digits (cs : List Char) (heven : cs.length % 2 = 0) (h : ∀ c ∈ cs, IsHexDigit c) : Pieces cs := by
  match cs with
  | [] => exact .nil
  | [c] => exact absurd heven Nat.one_ne_zero
  | c :: d :: cs =>
    rw [List.forall_mem_cons, List.forall_mem_cons] at h
    refine .cons ⟨.inr h.1, h.2.1⟩ (pieces_of_digits cs ?_ h.2.2)
    simp only [List.length_cons] at heven
    omega

theorem Pieces.digits {cs : List Char} (h : Pieces cs) (hplus : '+' ∉ cs) : ∀ c ∈ cs, IsHexDigit c := by
  induction h with
  | nil => exact fun c hc => absurd hc List.not_mem_nil
  | cons hpiece _ ih =>
    rw [List.mem_cons, List.mem_cons, not_or, not_or] at hplus
    rw [List.forall_mem_cons, List.forall_mem_cons]
    exact ⟨hpiece.1.resolve_left (Ne.symm hplus.1), hpiece.2, ih hplus.2.2⟩

theorem encode_length_of_small {cs : List Char} (h : ∀ c ∈ cs, c.toNat < 0x80) : (encode cs).length = cs.length := by
  induction cs with
  | nil => rfl
  | cons c cs ih =>
    rw [List.forall_mem_cons] at h
    rw [encode, List.flatMap_cons, encodeChar_small h.1, List.length_append, ih h.2, List.length_singleton,
      List.length_cons, Nat.add_comm]

theorem HexHash.pieces {hex : String} (h : HexHash hex) : Pieces hex.toList :=
  pieces_of_digits hex.toList (by rw [h.1]) h.2

theorem fromHex_of_decode {hex : String} {bytes : List UInt8} (h : hexDecode hex = .ok bytes) :
    fromHex hex = if bytes.length ≠ 32 then .error (.error s!"Expected 32-byte SHA-256 hash, got {bytes.length} bytes")
      else .ok bytes := by
  rw [fromHex, h]
  simp only [context, bind, Except.bind]
  split <;> rfl

theorem hexDecode_of_even {hex : String} (h : (encode hex.toList).length % 2 = 0) :
    hexDecode hex = hexPieces 0 (encode hex.toList) := by
  rw [hexDecode, ascii_eq, if_neg (not_not.mpr h)]

theorem fromHex_pieces {hex : String} (hlen : hex.toList.length = 64) (h : Pieces hex.toList) :
    fromHex hex = .ok (denoted hex.toList) := by
  have hbytes : (encode hex.toList).length % 2 = 0 := by rw [encode_length_of_small h.small, hlen]
  have hcount : (denoted hex.toList).length = 32 := by
    have hdouble := denoted_length h
    omega
  rcases hexPieces_encode 0 hex.toList hbytes with ⟨-, hok⟩ | ⟨hps, -⟩ | ⟨hs, -⟩
  · rw [fromHex_of_decode ((hexDecode_of_even hbytes).trans hok), if_neg (not_not.mpr hcount)]
  · exact absurd h hps
  · exact absurd hs h.not_straddles

theorem hexValue_hexChar : ∀ n < 16, JsonText.hexValue (hexChar n) = some n := by decide

theorem denoted_hexEncode (bytes : List UInt8) :
    denoted (bytes.flatMap fun b => [hexChar (b.toNat / 16), hexChar (b.toNat % 16)]) = bytes := by
  induction bytes with
  | nil => rfl
  | cons b bytes ih =>
    have hb := b.toNat_lt
    have hvalue : 16 * (b.toNat / 16) + b.toNat % 16 = b.toNat := Nat.div_add_mod b.toNat 16
    rw [List.flatMap_cons, List.cons_append, List.cons_append, List.nil_append, denoted, ih,
      hexValue_hexChar _ (by omega), hexValue_hexChar _ (by omega), Option.getD_some, Option.getD_some, hvalue,
      UInt8.ofNat_toNat]

theorem hexHash_hexEncode (hash : Vector UInt8 32) : HexHash (hexEncode hash.toList) := by
  rw [HexHash, hexEncode, String.toList_ofList]
  constructor
  · simp [List.length_flatMap]
  · intro c hc
    obtain ⟨b, -, hc⟩ := List.mem_flatMap.mp hc
    have hb := b.toNat_lt
    simp only [List.mem_cons, List.not_mem_nil, or_false] at hc
    rcases hc with rfl | rfl
    · exact Option.isSome_of_eq_some (hexValue_hexChar _ (by omega))
    · exact Option.isSome_of_eq_some (hexValue_hexChar _ (by omega))

theorem toNat_of_isContinuation {b : UInt8} (h : isContinuation b = true) : 0x80 ≤ b.toNat := by
  simp only [isContinuation, Bool.and_eq_true, decide_eq_true_eq, UInt8.le_iff_toNat_le] at h
  exact h.1

theorem hexPairs_of_hexPieces (i : Nat) (bytes : List UInt8) (heven : bytes.length % 2 = 0) :
    (∃ out, hexPieces i bytes = .ok out ∧ hexPairs i bytes = .ok out) ∨
      ∃ fault e, hexPieces i bytes = .error fault ∧ hexPairs i bytes = .error e := by
  match bytes with
  | [] => exact .inl ⟨[], rfl, rfl⟩
  | [a] => exact absurd heven Nat.one_ne_zero
  | a :: b :: rest =>
    have hrest : rest.length % 2 = 0 := by
      simp only [List.length_cons] at heven
      omega
    rw [hexPieces, hexPairs]
    by_cases hcut : rest.head?.any isContinuation = true
    · refine .inr ⟨.panic, ?_⟩
      rw [if_pos hcut]
      match rest with
      | [] => exact absurd hcut Bool.false_ne_true
      | [c] => exact absurd hrest Nat.one_ne_zero
      | c :: d :: rest =>
        rw [hexPairs, fromStrRadix_high (toNat_of_isContinuation hcut)]
        cases fromStrRadix a b with
        | none => exact ⟨_, rfl, rfl⟩
        | some byte => exact ⟨_, rfl, rfl⟩
    · rw [if_neg hcut]
      cases fromStrRadix a b with
      | none => exact .inr ⟨_, _, rfl, rfl⟩
      | some byte =>
        rcases hexPairs_of_hexPieces (i + 2) rest hrest with ⟨out, hpieces, hpairs⟩ | ⟨fault, e, hpieces, hpairs⟩
        · refine .inl ⟨byte :: out, ?_, ?_⟩
          · rw [hpieces]
            rfl
          · rw [hpairs]
            rfl
        · refine .inr ⟨fault, e, ?_, ?_⟩
          · rw [hpieces]
            rfl
          · rw [hpairs]
            rfl

theorem measured_fromHex_ok_iff (hex : String) (hash : List UInt8) :
    Measured.fromHex hex = .ok hash ↔ fromHex hex = .ok hash := by
  by_cases heven : (ascii hex).length % 2 = 0
  · have hdecode : Measured.hexDecode hex = hexPairs 0 (ascii hex) := if_neg (not_not.mpr heven)
    have hdecode' : hexDecode hex = hexPieces 0 (ascii hex) := if_neg (not_not.mpr heven)
    rw [Measured.fromHex, fromHex, hdecode, hdecode']
    rcases hexPairs_of_hexPieces 0 (ascii hex) heven with ⟨out, hpieces, hpairs⟩ | ⟨fault, e, hpieces, hpairs⟩
    · rw [hpieces, hpairs]
      by_cases hlen : out.length = 32
      · simp [Measured.context, context, bind, Except.bind, pure, Except.pure, hlen]
      · simp [Measured.context, context, bind, Except.bind, hlen]
    · rw [hpieces, hpairs]
      cases fault <;> simp [Measured.context, context, bind, Except.bind]
  · have hdecode : Measured.hexDecode hex = .error "Hex string has odd length" := if_pos heven
    have hdecode' : hexDecode hex = .error (.error "Hex string has odd length") := if_pos heven
    rw [Measured.fromHex, fromHex, hdecode, hdecode']
    simp [Measured.context, context, bind, Except.bind]

/-- A string is treated as the hash that it is, or refused, if and only if it is not 32 pieces with a
plus sign and no slice behind pieces ends inside a character; written hashes come back. -/
theorem fromHex_exact_iff (hex : String) (hash : Vector UInt8 32) :
    (HexExact hex ↔ ¬ Signed hex ∧ ¬ (hex.utf8ByteSize % 2 = 0 ∧ Straddles hex.toList)) ∧
      fromHex (hexEncode hash.toList) = .ok hash.toList := by
  have hsize : (ascii hex).length = hex.utf8ByteSize := rfl
  refine ⟨⟨fun h => ⟨?_, ?_⟩, fun ⟨hsigned, hstraddles⟩ => ⟨fun hhash => ?_, fun hhash => ?_⟩⟩, ?_⟩
  · rintro ⟨hlen, hpieces, hplus⟩
    obtain ⟨e, he⟩ := h.refuses fun hhash => absurd (hhash.2 '+' hplus) (by decide)
    rw [fromHex_pieces hlen hpieces] at he
    cases he
  · rintro ⟨heven, hs⟩
    obtain ⟨c, hc, hwide⟩ := hs.wide
    obtain ⟨e, he⟩ := h.refuses fun hhash => absurd (hhash.2 c hc).toNat_lt (Nat.not_lt.mpr hwide)
    rw [← hsize, ascii_eq] at heven
    rcases hexPieces_encode 0 hex.toList heven with ⟨hps, -⟩ | ⟨-, hnot, -⟩ | ⟨-, hpanic⟩
    · exact hps.not_straddles hs
    · exact hnot hs
    · rw [fromHex, hexDecode_of_even heven, hpanic] at he
      cases he
  · exact fromHex_pieces hhash.1 hhash.pieces
  · by_cases heven : (encode hex.toList).length % 2 = 0
    · rcases hexPieces_encode 0 hex.toList heven with ⟨hps, hok⟩ | ⟨-, -, e, he⟩ | ⟨hs, -⟩
      · have hlen : (denoted hex.toList).length ≠ 32 := by
          intro hcount
          have hdouble := denoted_length hps
          have hplus : '+' ∉ hex.toList := fun hplus => hsigned ⟨by omega, hps, hplus⟩
          exact hhash ⟨by omega, hps.digits hplus⟩
        rw [fromHex_of_decode ((hexDecode_of_even heven).trans hok), if_pos hlen]
        exact ⟨_, rfl⟩
      · rw [fromHex, hexDecode_of_even heven, he]
        exact ⟨_, rfl⟩
      · rw [← ascii_eq, hsize] at heven
        exact absurd ⟨heven, hs⟩ hstraddles
    · rw [fromHex, hexDecode, ascii_eq, if_pos heven]
      exact ⟨_, rfl⟩
  · rw [fromHex_pieces (hexHash_hexEncode hash).1 (hexHash_hexEncode hash).pieces, hexEncode, String.toList_ofList,
      denoted_hexEncode]

theorem fromHex_exact_fails : ¬ HexExact (String.ofList (List.replicate 32 ['+', '0']).flatten) := by
  intro h
  have htext : (String.ofList (List.replicate 32 ['+', '0']).flatten).toList =
      (List.replicate 32 ['+', '0']).flatten := String.toList_ofList
  have hpieces : ∀ n, Pieces (List.replicate n ['+', '0']).flatten := by
    intro n
    induction n with
    | zero => exact .nil
    | succ n ih => exact .cons ⟨.inl rfl, by decide⟩ ih
  obtain ⟨e, he⟩ := h.refuses fun hhash => absurd (hhash.2 '+' (by rw [htext]; decide)) (by decide)
  rw [fromHex_pieces (by rw [htext]; decide) (by rw [htext]; exact hpieces 32)] at he
  cases he

end CloneVmm.Boot.KernelVerifier
