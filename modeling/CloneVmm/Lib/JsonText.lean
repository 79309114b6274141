import CloneVmm.Lib.Json

namespace CloneVmm.Lib.JsonText

variable {F α : Type}

def isNumberChar (c : Char) : Bool := c.isDigit || c == '-' || c == '+' || c == '.' || c == 'e' || c == 'E'

def intText (z : Int) : List Char :=
  if z < 0 then '-' :: Nat.toDigits 10 z.natAbs else Nat.toDigits 10 z.natAbs

def natOf (cs : List Char) : Option Nat :=
  if cs ≠ [] ∧ cs.all Char.isDigit then some (Nat.ofDigitChars 10 cs 0) else none

def intOf : List Char → Option Int
  | '-' :: cs => (natOf cs).map fun n : Nat => -(n : Int)
  | cs => (natOf cs).map Int.ofNat

structure FloatText (F : Type) where
  text : F → List Char
  read : List Char → Option F

namespace FloatText

structure Survives (ft : FloatText F) (x : F) : Prop where
  chars : ∀ c ∈ ft.text x, isNumberChar c = true
  notInt : intOf (ft.text x) = none
  read : ft.read (ft.text x) = some x
  nonempty : ft.text x ≠ []

def number (ft : FloatText F) (token : List Char) : Option (Json F) :=
  match intOf token with
  | some z => if h : -2 ^ 63 ≤ z ∧ z < 2 ^ 64 then some (.int ⟨z, h.1, h.2⟩) else (ft.read token).map .float
  | none => (ft.read token).map .float

end FloatText

def shortEscapes : List (Char × Char) :=
  [('"', '"'), ('\\', '\\'), ('\x08', 'b'), ('\x0c', 'f'), ('\n', 'n'), ('\r', 'r'), ('\t', 't')]

def escape (c : Char) : List Char :=
  match shortEscapes.find? fun p => p.1 = c with
  | some p => ['\\', p.2]
  | none =>
    if c.toNat < 32 then ['\\', 'u', '0', '0', Nat.digitChar (c.toNat / 16), Nat.digitChar (c.toNat % 16)] else [c]

def quote (s : String) : List Char := '"' :: (s.toList.flatMap escape ++ ['"'])

def unescape (e : Char) : Option Char :=
  if e = '/' then some '/' else (shortEscapes.find? fun p => p.2 = e).map Prod.fst

def hexValue (c : Char) : Option Nat :=
  if c.isDigit then some (c.toNat - 48)
  else if 'a' ≤ c ∧ c ≤ 'f' then some (c.toNat - 87)
  else if 'A' ≤ c ∧ c ≤ 'F' then some (c.toNat - 55)
  else none

def hexOf (cs : List Char) : Option Nat :=
  cs.foldlM (fun n c => (hexValue c).map fun v => 16 * n + v) 0

def readEscape : List Char → Option (Char × List Char)
  | [] => none
  | e :: rest =>
    if e = 'u' then
      (hexOf (rest.take 4)).bind fun n =>
        if 4 ≤ rest.length ∧ (n < 0xD800 ∨ 0xE000 ≤ n) then some (Char.ofNat n, rest.drop 4) else none
    else (unescape e).map fun c => (c, rest)

def readChar : List Char → Option (Char × List Char)
  | [] => none
  | c :: rest => if c = '\\' then readEscape rest else if c.toNat < 32 then none else some (c, rest)

def readChars : Nat → List Char → Option (List Char × List Char)
  | 0, _ => none
  | left + 1, cs =>
    if cs.head? = some '"' then some ([], cs.tail)
    else (readChar cs).bind fun r => (readChars left r.2).map fun t => (r.1 :: t.1, t.2)

def readString (cs : List Char) : Option (String × List Char) :=
  (readChars cs.length cs).map fun r => (String.ofList r.1, r.2)

def separated : List (List Char) → List Char
  | [] => []
  | [item] => item
  | item :: items => item ++ ',' :: separated items

mutual

def print (ft : FloatText F) : Json F → List Char
  | .null => ['n', 'u', 'l', 'l']
  | .bool true => ['t', 'r', 'u', 'e']
  | .bool false => ['f', 'a', 'l', 's', 'e']
  | .int n => intText n.val
  | .float x => ft.text x
  | .string s => quote s
  | .array xs => '[' :: (separated (printItems ft xs) ++ [']'])
  | .object fields => '{' :: (separated (printFields ft fields) ++ ['}'])

def printItems (ft : FloatText F) : List (Json F) → List (List Char)
  | [] => []
  | x :: xs => print ft x :: printItems ft xs

def printFields (ft : FloatText F) : List (String × Json F) → List (List Char)
  | [] => []
  | (name, x) :: fields => (quote name ++ ':' :: print ft x) :: printFields ft fields

end

def readWord : List Char → Option (Json F × List Char)
  | '"' :: rest => (readString rest).map fun r => (.string r.1, r.2)
  | 'n' :: 'u' :: 'l' :: 'l' :: rest => some (.null, rest)
  | 't' :: 'r' :: 'u' :: 'e' :: rest => some (.bool true, rest)
  | 'f' :: 'a' :: 'l' :: 's' :: 'e' :: rest => some (.bool false, rest)
  | _ => none

def readScalar (ft : FloatText F) (cs : List Char) : Option (Json F × List Char) :=
  if cs.takeWhile isNumberChar = [] then readWord cs
  else (ft.number (cs.takeWhile isNumberChar)).map fun j => (j, cs.dropWhile isNumberChar)

def readItems (p : List Char → Option (α × List Char)) (close : Char) : Nat → List Char → Option (List α × List Char)
  | 0, _ => none
  | left + 1, cs =>
    (p cs).bind fun r =>
      if r.2.head? = some close then some ([r.1], r.2.tail)
      else if r.2.head? = some ',' then (readItems p close left r.2.tail).map fun t => (r.1 :: t.1, t.2)
      else none

def readList (p : List Char → Option (α × List Char)) (close : Char) (cs : List Char) :
    Option (List α × List Char) :=
  if cs.head? = some close then some ([], cs.tail) else readItems p close cs.length cs

def readMember (p : List Char → Option (α × List Char)) (cs : List Char) : Option ((String × α) × List Char) :=
  if cs.head? = some '"' then
    (readString cs.tail).bind fun name =>
      if name.2.head? = some ':' then (p name.2.tail).map fun r => ((name.1, r.1), r.2) else none
  else none

def readValue (ft : FloatText F) : Nat → List Char → Option (Json F × List Char)
  | 0, cs => readScalar ft cs
  | depth + 1, cs =>
    if cs.head? = some '[' then
      (readList (readValue ft depth) ']' cs.tail).map fun r => (.array r.1, r.2)
    else if cs.head? = some '{' then
      (readList (readMember (readValue ft depth)) '}' cs.tail).map fun r => (.object r.1, r.2)
    else readScalar ft cs

def toBytes (ft : FloatText F) (j : Json F) : List UInt8 := (String.ofList (print ft j)).toByteArray.data.toList

def ofBytes (ft : FloatText F) (depth : Nat) (bytes : List UInt8) : Option (Json F) :=
  (ByteArray.mk bytes.toArray).utf8Decode?.bind fun cs =>
    (readValue ft depth cs.toList).bind fun r => if r.2 = [] then some r.1 else none

def Ends (rest : List Char) : Prop := ∀ c, rest.head? = some c → isNumberChar c = false

section Numbers

variable {rest token : List Char} {ft : FloatText F}

theorem isNumberChar_of_isDigit {c : Char} (h : c.isDigit = true) : isNumberChar c = true := by
  unfold isNumberChar
  rw [h]
  rfl

theorem natOf_toDigits (n : Nat) : natOf (Nat.toDigits 10 n) = some n := by
  have hdigits : (Nat.toDigits 10 n).all Char.isDigit = true :=
    List.all_eq_true.mpr fun c hc => Nat.isDigit_of_mem_toDigits (by decide) (by decide) hc
  rw [natOf, if_pos ⟨Nat.toDigits_ne_nil, hdigits⟩, Nat.ofDigitChars_toDigits (by decide) (by decide)]

theorem intOf_of_digits {cs : List Char} (h : ∀ c ∈ cs, c.isDigit = true) : intOf cs = (natOf cs).map Int.ofNat := by
  unfold intOf
  split
  · exact absurd (h _ List.mem_cons_self) (by decide)
  · rfl

theorem intOf_intText (z : Int) : intOf (intText z) = some z := by
  unfold intText
  split
  · rw [intOf, natOf_toDigits, Option.map_some, Option.some_inj]
    omega
  · rw [intOf_of_digits fun c hc => Nat.isDigit_of_mem_toDigits (by decide) (by decide) hc, natOf_toDigits,
      Option.map_some, Option.some_inj]
    exact Int.natAbs_of_nonneg (by omega)

theorem isNumberChar_intText {z : Int} : ∀ c ∈ intText z, isNumberChar c = true := by
  have hdigits : ∀ c ∈ Nat.toDigits 10 z.natAbs, isNumberChar c = true :=
    fun c hc => isNumberChar_of_isDigit (Nat.isDigit_of_mem_toDigits (by decide) (by decide) hc)
  unfold intText
  split
  · exact List.forall_mem_cons.mpr ⟨rfl, hdigits⟩
  · exact hdigits

theorem intText_ne_nil (z : Int) : intText z ≠ [] := by
  unfold intText
  split
  · exact List.cons_ne_nil _ _
  · exact Nat.toDigits_ne_nil

theorem number_int (n : JsonInt) : ft.number (intText n.val) = some (.int n) := by
  rw [FloatText.number, intOf_intText]
  exact dif_pos ⟨n.lower, n.upper⟩

theorem number_float {x : F} (h : ft.Survives x) : ft.number (ft.text x) = some (.float x) := by
  rw [FloatText.number, h.notInt, h.read]
  rfl

theorem readScalar_number (hchars : ∀ c ∈ token, isNumberChar c = true) (hne : token ≠ []) (hends : Ends rest) :
    readScalar ft (token ++ rest) = (ft.number token).map fun j => (j, rest) := by
  have hnone : rest.takeWhile isNumberChar = [] ∧ rest.dropWhile isNumberChar = rest := by
    cases rest with
    | nil => exact ⟨rfl, rfl⟩
    | cons c rest =>
      have hc := hends c rfl
      exact ⟨List.takeWhile_cons_of_neg (by simp [hc]), List.dropWhile_cons_of_neg (by simp [hc])⟩
  rw [readScalar, List.takeWhile_append_of_pos hchars, List.dropWhile_append_of_pos hchars, hnone.1, hnone.2,
    List.append_nil, if_neg hne]

end Numbers

section Strings

variable {rest : List Char}

theorem shortEscapes_unescape : ∀ p ∈ shortEscapes, unescape p.2 = some p.1 ∧ p.2 ≠ 'u' := by decide

theorem hexOf_control : ∀ n < 32, hexOf ['0', '0', Nat.digitChar (n / 16), Nat.digitChar (n % 16)] = some n := by
  decide

theorem readChar_escape (c : Char) : readChar (escape c ++ rest) = some (c, rest) := by
  unfold escape
  split
  · rename_i p hfind
    obtain ⟨hunescape, hne⟩ := shortEscapes_unescape p (List.mem_of_find?_eq_some hfind)
    have hp := List.find?_some hfind
    rw [List.cons_append, readChar, if_pos rfl, List.cons_append, readEscape, if_neg hne, hunescape,
      of_decide_eq_true hp]
    rfl
  · rename_i hfind
    split
    · rename_i hlt
      have hhex := hexOf_control c.toNat hlt
      rw [List.cons_append, readChar, if_pos rfl, List.cons_append, readEscape, if_pos rfl]
      change (hexOf ['0', '0', Nat.digitChar (c.toNat / 16), Nat.digitChar (c.toNat % 16)]).bind _ = _
      rw [hhex, Option.bind_some, if_pos ⟨by simp, .inl (by omega)⟩, Char.ofNat_toNat]
      rfl
    · rename_i hge
      have hne : c ≠ '\\' := by
        rintro rfl
        exact absurd hfind (by decide)
      rw [List.cons_append, readChar, if_neg hne, if_neg hge]
      rfl

theorem escape_head {c : Char} : ∃ e cs, escape c = e :: cs ∧ e ≠ '"' := by
  unfold escape
  split
  · exact ⟨_, _, rfl, by decide⟩
  · rename_i hfind
    split
    · exact ⟨_, _, rfl, by decide⟩
    · refine ⟨c, [], rfl, ?_⟩
      rintro rfl
      exact absurd hfind (by decide)

theorem readChars_escape {cs : List Char} {left : Nat} (hleft : cs.length < left) :
    readChars left (cs.flatMap escape ++ '"' :: rest) = some (cs, rest) := by
  induction cs generalizing left with
  | nil =>
    obtain ⟨left, rfl⟩ := Nat.exists_eq_succ_of_ne_zero (Nat.ne_of_gt hleft)
    rw [readChars]
    exact if_pos rfl
  | cons c cs ih =>
    obtain ⟨left, rfl⟩ := Nat.exists_eq_succ_of_ne_zero (Nat.ne_of_gt (Nat.zero_lt_of_lt hleft))
    obtain ⟨e, es, hescape, hne⟩ := @escape_head c
    rw [List.flatMap_cons, List.append_assoc, readChars, if_neg, readChar_escape, Option.bind_some, ih]
    · rfl
    · exact Nat.lt_of_succ_lt_succ hleft
    · rw [hescape]
      exact fun h => hne (Option.some.inj h)

theorem length_le_flatMap_escape (cs : List Char) : cs.length ≤ (cs.flatMap escape).length := by
  induction cs with
  | nil => exact Nat.le_refl 0
  | cons c cs ih =>
    obtain ⟨e, es, hescape, -⟩ := @escape_head c
    rw [List.flatMap_cons, List.length_append, List.length_cons, hescape, List.length_cons]
    omega

theorem readString_quote (s : String) : readString ((quote s).tail ++ rest) = some (s, rest) := by
  have htail : (quote s).tail ++ rest = s.toList.flatMap escape ++ '"' :: rest := by
    rw [quote, List.tail_cons, List.append_assoc]
    rfl
  have hle := length_le_flatMap_escape s.toList
  rw [htail, readString, readChars_escape]
  · rw [Option.map_some, String.ofList_toList]
  · rw [List.length_append, List.length_cons]
    omega

end Strings

section Lists

variable {p : List Char → Option (α × List Char)} {w : α → List Char} {good : α → Prop} [DecidablePred good]
  {as : List α} {close : Char} {rest : List Char} {left : Nat}

theorem separated_cons_cons (item item' : List Char) (items : List (List Char)) :
    separated (item :: item' :: items) = item ++ ',' :: separated (item' :: items) := rfl

theorem ends_cons {c : Char} (h : isNumberChar c = false) : Ends (c :: rest) := by
  intro c' hc'
  obtain rfl := Option.some.inj hc'
  exact h

theorem readItems_separated (hne : as ≠ [])
    (h : ∀ a ∈ as, ∀ rest, Ends rest → p (w a ++ rest) = if good a then some (a, rest) else none)
    (hclose : isNumberChar close = false) (hcomma : close ≠ ',') (hleft : as.length ≤ left) :
    readItems p close left (separated (as.map w) ++ close :: rest) =
      if ∀ a ∈ as, good a then some (as, rest) else none := by
  induction as generalizing left with
  | nil => exact absurd rfl hne
  | cons a as ih =>
    obtain ⟨left, rfl⟩ := Nat.exists_eq_succ_of_ne_zero (Nat.ne_of_gt (Nat.lt_of_lt_of_le (Nat.succ_pos _) hleft))
    obtain ⟨ha, has⟩ := List.forall_mem_cons.mp h
    cases as with
    | nil =>
      rw [List.map_singleton, separated, readItems, ha _ (ends_cons hclose)]
      simp only [List.forall_mem_singleton]
      by_cases hgood : good a
      · rw [if_pos hgood, if_pos hgood]
        exact if_pos rfl
      · rw [if_neg hgood, if_neg hgood]
        rfl
    | cons b bs =>
      rw [List.map_cons, List.map_cons, separated_cons_cons, List.append_assoc, List.cons_append, readItems,
        ha _ (ends_cons (by decide)), ← List.map_cons]
      by_cases hgood : good a
      · have hstop : ¬ (',' :: (separated ((b :: bs).map w) ++ close :: rest)).head? = some close :=
          fun heq => hcomma (Option.some.inj heq).symm
        have hcomma' : (',' :: (separated ((b :: bs).map w) ++ close :: rest)).head? = some ',' := rfl
        rw [if_pos hgood, Option.bind_some, if_neg hstop, if_pos hcomma', List.tail_cons,
          ih (List.cons_ne_nil b bs) has (Nat.le_of_succ_le_succ hleft)]
        by_cases hrest : ∀ a ∈ b :: bs, good a
        · rw [if_pos hrest, if_pos (List.forall_mem_cons.mpr ⟨hgood, hrest⟩)]
          rfl
        · rw [if_neg hrest, if_neg fun hall => hrest (List.forall_mem_cons.mp hall).2]
          rfl
      · rw [if_neg hgood, if_neg fun hall => hgood (List.forall_mem_cons.mp hall).1]
        rfl

theorem length_le_separated {items : List (List Char)} (h : ∀ item ∈ items, item ≠ []) :
    items.length ≤ (separated items).length := by
  induction items with
  | nil => exact Nat.le_refl 0
  | cons item items ih =>
    obtain ⟨hitem, hitems⟩ := List.forall_mem_cons.mp h
    have hpos := List.length_pos_iff.mpr hitem
    have hle := ih hitems
    cases items with
    | nil => exact hpos
    | cons item' items =>
      rw [separated_cons_cons]
      simp only [List.length_append, List.length_cons] at hle ⊢
      omega

theorem readList_separated
    (h : ∀ a ∈ as, ∀ rest, Ends rest → p (w a ++ rest) = if good a then some (a, rest) else none)
    (hhead : ∀ a ∈ as, ∃ c cs, w a = c :: cs ∧ c ≠ close) (hclose : isNumberChar close = false) (hcomma : close ≠ ',') :
    readList p close (separated (as.map w) ++ close :: rest) = if ∀ a ∈ as, good a then some (as, rest) else none := by
  cases as with
  | nil =>
    rw [if_pos fun a ha => absurd ha List.not_mem_nil]
    exact if_pos rfl
  | cons a as =>
    have hnonempty : ∀ item ∈ (a :: as).map w, item ≠ [] := by
      rw [List.forall_mem_map]
      intro a' ha'
      obtain ⟨c, cs, hcs, -⟩ := hhead a' ha'
      rw [hcs]
      exact List.cons_ne_nil c cs
    have hlength := length_le_separated hnonempty
    rw [List.length_map] at hlength
    rw [readList, if_neg]
    · apply readItems_separated (List.cons_ne_nil a as) h hclose hcomma
      rw [List.length_append]
      omega
    · obtain ⟨c, cs, hcs, hne⟩ := hhead a List.mem_cons_self
      cases as with
      | nil =>
        rw [List.map_singleton, separated, hcs]
        exact fun heq => hne (Option.some.inj heq)
      | cons b bs =>
        rw [List.map_cons, List.map_cons, separated_cons_cons, hcs]
        exact fun heq => hne (Option.some.inj heq)

end Lists

section Values

variable {ft : FloatText F} {rest : List Char}

theorem printItems_eq (xs : List (Json F)) : printItems ft xs = xs.map (print ft) := by
  induction xs with
  | nil => rfl
  | cons x xs ih => rw [printItems, ih, List.map_cons]

theorem printFields_eq (fields : List (String × Json F)) :
    printFields ft fields = fields.map fun f => quote f.1 ++ ':' :: print ft f.2 := by
  induction fields with
  | nil => rfl
  | cons f fields ih =>
    obtain ⟨name, x⟩ := f
    rw [printFields, ih, List.map_cons]

theorem readScalar_print {j : Json F} (hdepth : j.depth = 0) (hfloats : ∀ x ∈ j.floats, ft.Survives x) (hends : Ends rest) :
    readScalar ft (print ft j ++ rest) = some (j, rest) := by
  cases j with
  | null => rfl
  | bool b =>
    cases b with
    | false => rfl
    | true => rfl
  | int n =>
    rw [print, readScalar_number isNumberChar_intText (intText_ne_nil _) hends, number_int]
    rfl
  | float x =>
    have hx := hfloats x List.mem_cons_self
    rw [print, readScalar_number hx.chars hx.nonempty hends, number_float hx]
    rfl
  | string s =>
    change ((readString ((quote s).tail ++ rest)).map fun r => (Json.string r.1, r.2)) = _
    rw [readString_quote]
    rfl
  | array xs => cases hdepth
  | object fields => cases hdepth

theorem number_head {token : List Char} (hchars : ∀ c ∈ token, isNumberChar c = true) (hne : token ≠ []) :
    ∃ c cs, token = c :: cs ∧ c ≠ ']' ∧ c ≠ '[' ∧ c ≠ '{' := by
  obtain ⟨c, cs, rfl⟩ := List.exists_cons_of_ne_nil hne
  have hc := hchars c List.mem_cons_self
  refine ⟨c, cs, rfl, ?_, ?_, ?_⟩
  all_goals
    rintro rfl
    exact absurd hc (by decide)

theorem print_head {j : Json F} (hfloats : ∀ x ∈ j.floats, ft.Survives x) :
    ∃ c cs, print ft j = c :: cs ∧ c ≠ ']' ∧ (j.depth = 0 → c ≠ '[' ∧ c ≠ '{') := by
  cases j with
  | null => exact ⟨_, _, rfl, by decide, fun _ => by decide⟩
  | bool b =>
    cases b with
    | false => exact ⟨_, _, rfl, by decide, fun _ => by decide⟩
    | true => exact ⟨_, _, rfl, by decide, fun _ => by decide⟩
  | int n =>
    obtain ⟨c, cs, hcs, hclose, hopen⟩ := number_head isNumberChar_intText (intText_ne_nil n.val)
    exact ⟨c, cs, hcs, hclose, fun _ => hopen⟩
  | float x =>
    have hx := hfloats x List.mem_cons_self
    obtain ⟨c, cs, hcs, hclose, hopen⟩ := number_head hx.chars hx.nonempty
    exact ⟨c, cs, hcs, hclose, fun _ => hopen⟩
  | string s => exact ⟨_, _, rfl, by decide, fun _ => by decide⟩
  | array xs => exact ⟨_, _, rfl, by decide, fun h => absurd h (Nat.succ_ne_zero _)⟩
  | object fields => exact ⟨_, _, rfl, by decide, fun h => absurd h (Nat.succ_ne_zero _)⟩

theorem readValue_scalar {d : Nat} {j : Json F} (hdepth : j.depth = 0) (hfloats : ∀ x ∈ j.floats, ft.Survives x)
    (hends : Ends rest) : readValue ft d (print ft j ++ rest) = some (j, rest) := by
  have hscalar := readScalar_print hdepth hfloats hends
  cases d with
  | zero => exact hscalar
  | succ d =>
    have hopen : (print ft j ++ rest).head? ≠ some '[' ∧ (print ft j ++ rest).head? ≠ some '{' := by
      obtain ⟨c, cs, hcs, -, hne⟩ := print_head hfloats
      rw [hcs]
      exact ⟨fun h => (hne hdepth).1 (Option.some.inj h), fun h => (hne hdepth).2 (Option.some.inj h)⟩
    rw [readValue, if_neg hopen.1, if_neg hopen.2]
    exact hscalar

theorem readMember_print {p : List Char → Option (Json F × List Char)} {f : String × Json F} {good : Json F → Prop}
    [DecidablePred good] (h : p (print ft f.2 ++ rest) = if good f.2 then some (f.2, rest) else none) :
    readMember p (quote f.1 ++ ':' :: print ft f.2 ++ rest) = if good f.2 then some (f, rest) else none := by
  have hquote : quote f.1 ++ ':' :: print ft f.2 ++ rest = '"' :: ((quote f.1).tail ++ ':' :: (print ft f.2 ++ rest)) := by
    rw [List.append_assoc]
    rfl
  have hname : ('"' :: ((quote f.1).tail ++ ':' :: (print ft f.2 ++ rest))).head? = some '"' := rfl
  have hcolon : (f.1, ':' :: (print ft f.2 ++ rest)).2.head? = some ':' := rfl
  rw [hquote, readMember, if_pos hname, List.tail_cons, readString_quote, Option.bind_some, if_pos hcolon,
    List.tail_cons, h]
  by_cases hgood : good f.2
  · rw [if_pos hgood, if_pos hgood]
    rfl
  · rw [if_neg hgood, if_neg hgood]
    rfl

theorem compound_of_depth {j : Json F} (h : j.depth ≠ 0) :
    (∃ xs, j = .array xs) ∨ ∃ fields, j = .object fields := by
  cases j with
  | array xs => exact .inl ⟨xs, rfl⟩
  | object fields => exact .inr ⟨fields, rfl⟩
  | null => exact absurd rfl h
  | bool b => exact absurd rfl h
  | int n => exact absurd rfl h
  | float x => exact absurd rfl h
  | string s => exact absurd rfl h

def ReadsAt (ft : FloatText F) (d : Nat) (j : Json F) : Prop :=
  ∀ rest, Ends rest → readValue ft d (print ft j ++ rest) = if j.depth ≤ d then some (j, rest) else none

theorem readsAt_array {d : Nat} {xs : List (Json F)} (hfloats : ∀ x ∈ xs, ∀ y ∈ x.floats, ft.Survives y)
    (h : ∀ x ∈ xs, ReadsAt ft d x) : ReadsAt ft (d + 1) (.array xs) := by
  intro rest hends
  have hopen : (print ft (.array xs) ++ rest).head? = some '[' := rfl
  have hitems : (print ft (.array xs) ++ rest).tail = separated (xs.map (print ft)) ++ ']' :: rest := by
    rw [← printItems_eq, print, List.cons_append, List.tail_cons, List.append_assoc]
    rfl
  have hread := @readList_separated _ (readValue ft d) (print ft) (fun x => x.depth ≤ d) _ xs ']' rest
    (fun x hx rest hends => h x hx rest hends)
    (fun x hx => (print_head (hfloats x hx)).imp fun c h => h.imp fun cs h => ⟨h.1, h.2.1⟩) (by decide) (by decide)
  rw [readValue, if_pos hopen, hitems, hread]
  simp only [Json.depth, Nat.add_le_add_iff_right, Json.depthList_le]
  exact apply_ite _ _ _ _

theorem readsAt_object {d : Nat} {fields : List (String × Json F)} (h : ∀ f ∈ fields, ReadsAt ft d f.2) :
    ReadsAt ft (d + 1) (.object fields) := by
  intro rest hends
  have hopen : (print ft (.object fields) ++ rest).head? ≠ some '[' ∧
      (print ft (.object fields) ++ rest).head? = some '{' :=
    ⟨fun h => absurd (Option.some.inj h) (by decide), rfl⟩
  have hitems : (print ft (.object fields) ++ rest).tail =
      separated (fields.map fun f => quote f.1 ++ ':' :: print ft f.2) ++ '}' :: rest := by
    rw [← printFields_eq, print, List.cons_append, List.tail_cons, List.append_assoc]
    rfl
  have hread := @readList_separated _ (readMember (readValue ft d)) (fun f => quote f.1 ++ ':' :: print ft f.2)
    (fun f => f.2.depth ≤ d) _ fields '}' rest
    (fun f hf rest hends => @readMember_print F ft rest _ f (fun x => x.depth ≤ d) _ (h f hf rest hends))
    (fun f _ => ⟨'"', _, rfl, by decide⟩) (by decide) (by decide)
  rw [readValue, if_neg hopen.1, if_pos hopen.2, hitems, hread]
  simp only [Json.depth, Nat.add_le_add_iff_right, Json.depthFields_le]
  exact apply_ite _ _ _ _

theorem readValue_print {d : Nat} {j : Json F} (hfloats : ∀ x ∈ j.floats, ft.Survives x) (hends : Ends rest) :
    readValue ft d (print ft j ++ rest) = if j.depth ≤ d then some (j, rest) else none := by
  induction d generalizing j rest with
  | zero =>
    by_cases hscalar : j.depth = 0
    · rw [readValue_scalar hscalar hfloats hends, if_pos (Nat.le_of_eq hscalar)]
    · rw [if_neg fun h => hscalar (Nat.le_zero.mp h)]
      obtain ⟨xs, rfl⟩ | ⟨fields, rfl⟩ := compound_of_depth hscalar
      · rfl
      · rfl
  | succ d ih =>
    by_cases hscalar : j.depth = 0
    · rw [readValue_scalar hscalar hfloats hends, if_pos (by omega)]
    · obtain ⟨xs, rfl⟩ | ⟨fields, rfl⟩ := compound_of_depth hscalar
      · have hxs : ∀ x ∈ xs, ∀ y ∈ x.floats, ft.Survives y := fun x hx y hy => hfloats y (Json.floats_of_mem hx y hy)
        exact readsAt_array hxs (fun x hx _ hends => ih (hxs x hx) hends) rest hends
      · have hfields : ∀ f ∈ fields, ∀ y ∈ f.2.floats, ft.Survives y :=
          fun f hf y hy => hfloats y (Json.floats_of_mem_fields hf y hy)
        exact readsAt_object (fun f hf _ hends => ih (hfields f hf) hends) rest hends

theorem ofBytes_toBytes {d : Nat} {j : Json F} (hfloats : ∀ x ∈ j.floats, ft.Survives x) :
    ofBytes ft d (toBytes ft j) = if j.depth ≤ d then some j else none := by
  have hends : Ends [] := fun c hc => by cases hc
  have hread := @readValue_print F ft [] d j hfloats hends
  rw [List.append_nil] at hread
  have hdecode : (ByteArray.mk (toBytes ft j).toArray).utf8Decode? = some (print ft j).toArray := by
    rw [toBytes, Array.toArray_toList, String.toByteArray_ofList]
    exact List.utf8Decode?_utf8Encode
  rw [ofBytes, hdecode, Option.bind_some, List.toList_toArray, hread]
  by_cases hle : j.depth ≤ d
  · rw [if_pos hle, if_pos hle, Option.bind_some]
    exact if_pos rfl
  · rw [if_neg hle, if_neg hle, Option.bind_none]

end Values

end CloneVmm.Lib.JsonText
