import Mathlib.Data.List.Infix

namespace Belayer.Framework.Text

/-- `c.isspace()`. -/
def isSpace (c : Char) : Bool :=
  let n := c.toNat
  (9 ≤ n && n ≤ 13) || (28 ≤ n && n ≤ 32) || n = 0x85 || n = 0xa0 || n = 0x1680 ||
    (0x2000 ≤ n && n ≤ 0x200a) || n = 0x2028 || n = 0x2029 || n = 0x202f || n = 0x205f || n = 0x3000

/-- `s.strip()`. -/
def strip (s : String) : String :=
  String.ofList ((s.toList.dropWhile isSpace).reverse.dropWhile isSpace).reverse

/-- `s.find(sub)`: the first place where the text starts. -/
def find (sub s : String) : Option Nat :=
  (List.range (s.toList.length + 1)).find? fun i => sub.toList.isPrefixOf (s.toList.drop i)

/-- `s[:i]`. -/
def take (s : String) (i : Nat) : String := String.ofList (s.toList.take i)

/-- `sub in s`. -/
def contains (sub s : String) : Bool := s.toList.tails.any (sub.toList.isPrefixOf ·)

theorem contains_iff {sub s : String} : contains sub s = true ↔ sub.toList <:+: s.toList := by
  rw [contains, List.any_eq_true, List.infix_iff_prefix_suffix]
  constructor
  · rintro ⟨t, ht, hsub⟩
    exact ⟨t, List.isPrefixOf_iff_prefix.mp hsub, (List.mem_tails t s.toList).mp ht⟩
  · rintro ⟨t, hsub, ht⟩
    exact ⟨t, (List.mem_tails t s.toList).mpr ht, List.isPrefixOf_iff_prefix.mpr hsub⟩

/-- `s.startswith(sub)`. -/
def startsWith (sub s : String) : Bool := sub.toList.isPrefixOf s.toList

/-- `s.endswith(sub)`. -/
def endsWith (sub s : String) : Bool := sub.toList.isSuffixOf s.toList

/-- `s.replace(old, new)` on the characters, of which the first `skip` are already replaced. -/
def replaceFrom (old new : List Char) : Nat → List Char → List Char
  | _, [] => []
  | skip + 1, _ :: s => replaceFrom old new skip s
  | 0, c :: s =>
    if old.isPrefixOf (c :: s) then new ++ replaceFrom old new (old.length - 1) s
    else c :: replaceFrom old new 0 s

/-- `s.replace(old, new)` for a text `old` that is not empty. -/
def replace (old new s : String) : String :=
  String.ofList (replaceFrom old.toList new.toList 0 s.toList)

/-- `s.replace(old, new, 1)`. -/
def replaceFirst (old new s : String) : String :=
  match find old s with
  | none => s
  | some i => take s i ++ new ++ String.ofList (s.toList.drop (i + old.toList.length))

/-- The zeros of the decimal digits (the category Nd); the other nine follow each of them. -/
def decimalZeros : List Nat :=
  [0x30, 0x660, 0x6f0, 0x7c0, 0x966, 0x9e6, 0xa66, 0xae6, 0xb66, 0xbe6, 0xc66, 0xce6, 0xd66,
    0xde6, 0xe50, 0xed0, 0xf20, 0x1040, 0x1090, 0x17e0, 0x1810, 0x1946, 0x19d0, 0x1a80, 0x1a90,
    0x1b50, 0x1bb0, 0x1c40, 0x1c50, 0xa620, 0xa8d0, 0xa900, 0xa9d0, 0xa9f0, 0xaa50, 0xabf0,
    0xff10, 0x104a0, 0x10d30, 0x11066, 0x110f0, 0x11136, 0x111d0, 0x112f0, 0x11450, 0x114d0,
    0x11650, 0x116c0, 0x11730, 0x118e0, 0x11950, 0x11c50, 0x11d50, 0x11da0, 0x16a60, 0x16ac0,
    0x16b50, 0x1d7ce, 0x1d7d8, 0x1d7e2, 0x1d7ec, 0x1d7f6, 0x1e140, 0x1e2f0, 0x1e950, 0x1fbf0]

/-- The value of a decimal digit. -/
def decimal (c : Char) : Option Nat :=
  decimalZeros.findSome? fun first =>
    if first ≤ c.toNat ∧ c.toNat < first + 10 then some (c.toNat - first) else none

def isDecimal (c : Char) : Bool := (decimal c).isSome

/-- `int(s)` for a text of decimal digits. -/
def decimalValue (s : List Char) : Nat :=
  s.foldl (fun n c => 10 * n + (decimal c).getD 0) 0

/-! Numbers in texts -/

theorem decimal_of_isDigit {c : Char} (h : c.isDigit) : decimal c = some (c.toNat - 48) := by
  have hrange : 48 ≤ c.toNat ∧ c.toNat < 58 := by
    simp only [Char.isDigit, Bool.and_eq_true, decide_eq_true_eq] at h
    exact ⟨h.1, Nat.lt_succ_of_le h.2⟩
  have hfirst : (0x30 : Nat) ≤ c.toNat ∧ c.toNat < 0x30 + 10 := hrange
  rw [decimal, decimalZeros, List.findSome?_cons, if_pos hfirst]

theorem isDecimal_of_isDigit {c : Char} (h : c.isDigit) : isDecimal c = true := by
  rw [isDecimal, decimal_of_isDigit h]
  rfl

/-- `int(str(n)) == n`. -/
theorem decimalValue_toDigits (n : Nat) : decimalValue (Nat.toDigits 10 n) = n := by
  have hfold : ∀ (digits : List Char) (m : Nat), (∀ c ∈ digits, c.isDigit) →
      digits.foldl (fun n c => 10 * n + (decimal c).getD 0) m = Nat.ofDigitChars 10 digits m := by
    intro digits
    induction digits with
    | nil => exact fun _ _ => rfl
    | cons c digits ih =>
      intro m hdigits
      obtain ⟨hc, hrest⟩ := List.forall_mem_cons.mp hdigits
      rw [List.foldl_cons, decimal_of_isDigit hc, Option.getD_some, ih _ hrest]
      rfl
  have hdigits : ∀ c ∈ Nat.toDigits 10 n, c.isDigit := fun c hc =>
    Nat.isDigit_of_mem_toDigits (by decide) (by decide) hc
  rw [decimalValue, hfold _ 0 hdigits, Nat.ofDigitChars_ten_toDigits]

/-- An integer as text: its sign and the digits of its absolute value. -/
theorem toList_toString (n : Int) :
    (toString n).toList = (if n < 0 then ['-'] else []) ++ Nat.toDigits 10 n.natAbs := by
  cases n with
  | ofNat n =>
    have hpos : ¬Int.ofNat n < 0 := by simp
    rw [if_neg hpos, List.nil_append]
    exact Nat.toList_repr
  | negSucc n =>
    have hneg : Int.negSucc n < 0 := by omega
    rw [if_pos hneg]
    have htext : toString (Int.negSucc n) = "-" ++ Nat.repr (n + 1) := rfl
    rw [htext, String.toList_append, Nat.toList_repr]
    rfl

theorem notMem_toString {c : Char} (hsign : c ≠ '-') (hdigit : ¬c.isDigit) (n : Int) :
    c ∉ (toString n).toList := by
  rw [toList_toString, List.mem_append]
  rintro (h | h)
  · split at h
    · exact hsign (List.mem_singleton.mp h)
    · exact List.not_mem_nil h
  · exact hdigit (Nat.isDigit_of_mem_toDigits (by decide) (by decide) h)

/-- The texts of two integers differ. -/
theorem toString_int_injective {m n : Int} (h : (toString m).toList = (toString n).toList) :
    m = n := by
  have hsign : ∀ k : Nat, '-' ∉ Nat.toDigits 10 k := fun k hk =>
    absurd (Nat.isDigit_of_mem_toDigits (by decide) (by decide) hk) (by decide)
  have hdigits : ∀ {k l : Nat}, Nat.toDigits 10 k = Nat.toDigits 10 l → k = l := fun {k l} hkl => by
    rw [← decimalValue_toDigits k, hkl, decimalValue_toDigits]
  rw [toList_toString, toList_toString] at h
  by_cases hm : m < 0 <;> by_cases hn : n < 0
  · rw [if_pos hm, if_pos hn] at h
    have := hdigits (List.append_cancel_left h)
    omega
  · rw [if_pos hm, if_neg hn] at h
    have hmem : '-' ∈ [] ++ Nat.toDigits 10 n.natAbs := h ▸ List.mem_cons_self
    exact absurd hmem (hsign _)
  · rw [if_neg hm, if_pos hn] at h
    have hmem : '-' ∈ [] ++ Nat.toDigits 10 m.natAbs := h ▸ List.mem_cons_self
    exact absurd hmem (hsign _)
  · rw [if_neg hm, if_neg hn] at h
    have := hdigits (List.append_cancel_left h)
    omega

/-- `s.isascii()`. -/
def IsAscii (s : String) : Prop := ∀ c ∈ s.toList, c.toNat < 128

instance (s : String) : Decidable (IsAscii s) :=
  inferInstanceAs (Decidable (∀ c ∈ s.toList, c.toNat < 128))

theorem isAscii_of_all {s : String} (h : (s.toList.all fun c => c.toNat < 128) = true) :
    IsAscii s := fun c hc => by
  simpa only [decide_eq_true_eq] using List.all_eq_true.mp h c hc

theorem IsAscii.append {s t : String} (hs : IsAscii s) (ht : IsAscii t) : IsAscii (s ++ t) := by
  intro c hc
  rw [String.toList_append, List.mem_append] at hc
  exact hc.elim (hs c) (ht c)

theorem isAscii_toString (n : Int) : IsAscii (toString n) := by
  intro c hc
  by_contra hlarge
  refine notMem_toString ?_ (fun hdigit => ?_) n hc
  · rintro rfl
    exact hlarge (by decide)
  · simp only [Char.isDigit, Bool.and_eq_true, decide_eq_true_eq] at hdigit
    have hle : c.toNat ≤ 57 := hdigit.2
    omega

/-! Bytes -/

/-- `s.encode()`. -/
def encode (s : String) : List UInt8 := s.toUTF8.data.toList

/-- `b.decode()`; `none` where the bytes are not UTF-8. -/
def decode (b : List UInt8) : Option String := String.fromUTF8? ⟨b.toArray⟩

theorem decode_encode (s : String) : decode (encode s) = some s := by
  have harray : (⟨(encode s).toArray⟩ : ByteArray) = s.toUTF8 := by
    rw [encode, Array.toArray_toList]
  have hvalid : s.toUTF8.IsValidUTF8 := s.isValidUTF8
  rw [decode, harray, String.fromUTF8?, dif_pos hvalid]
  rfl

theorem encode_eq (s : String) : encode s = s.toList.flatMap String.utf8EncodeChar := by
  rw [encode, String.toUTF8_eq_toByteArray, ← String.utf8Encode_toList, List.utf8Encode]
  simp

/-- The byte of an ASCII character stands for nothing else. -/
theorem eq_of_mem_utf8EncodeChar {c d : Char} (hd : d.toNat < 128)
    (h : UInt8.ofNat d.toNat ∈ String.utf8EncodeChar c) : c = d := by
  have hbyte : ∀ n, UInt8.ofNat d.toNat = UInt8.ofNat n → d.toNat = n % 256 := by
    intro n hn
    have hnat := congrArg UInt8.toNat hn
    rw [UInt8.toNat_ofNat', UInt8.toNat_ofNat'] at hnat
    omega
  unfold String.utf8EncodeChar at h
  dsimp only at h
  change UInt8.ofNat d.toNat ∈ (if c.toNat ≤ 0x7f then _ else _) at h
  split_ifs at h
  · have hsame := hbyte _ (List.mem_singleton.mp h)
    apply Char.toNat_inj.mp
    rw [hsame]
    exact (Nat.mod_eq_of_lt (by omega)).symm
  · simp only [List.mem_cons, List.not_mem_nil, or_false] at h
    rcases h with h | h <;> have := hbyte _ h <;> omega
  · simp only [List.mem_cons, List.not_mem_nil, or_false] at h
    rcases h with h | h | h <;> have := hbyte _ h <;> omega
  · simp only [List.mem_cons, List.not_mem_nil, or_false] at h
    rcases h with h | h | h | h <;> have := hbyte _ h <;> omega

theorem notMem_encode {s : String} {d : Char} (hd : d.toNat < 128) (h : d ∉ s.toList) :
    UInt8.ofNat d.toNat ∉ encode s := by
  intro hmem
  rw [encode_eq, List.mem_flatMap] at hmem
  obtain ⟨c, hc, hbyte⟩ := hmem
  exact h (eq_of_mem_utf8EncodeChar hd hbyte ▸ hc)

/-! Texts around a number -/

variable {α : Type*} {s l m : List α}

/-- A text that starts before a character that it does not have ends before it. -/
theorem prefix_of_append_cons {c : α} (hc : c ∉ s) (h : s <+: l ++ c :: m) : s <+: l := by
  rcases Nat.le_total s.length l.length with hle | hle
  · exact List.prefix_of_prefix_length_le h (List.prefix_append l _) hle
  · rcases Nat.eq_or_lt_of_le hle with heq | hlt
    · exact List.prefix_of_prefix_length_le h (List.prefix_append l _) (Nat.le_of_eq heq.symm)
    · have hsplit : l ++ c :: m = (l ++ [c]) ++ m := by simp
      have hlong : l ++ [c] <+: s := by
        refine List.prefix_of_prefix_length_le (hsplit ▸ List.prefix_append (l ++ [c]) m) h ?_
        rw [List.length_append]
        exact hlt
      exact absurd (hlong.subset (List.mem_append_right l (List.mem_singleton_self c))) hc

/-- A text cannot reach over a character that it does not have. -/
theorem infix_append_cons {c : α} (hc : c ∉ s) : s <:+: l ++ c :: m ↔ s <:+: l ∨ s <:+: m := by
  induction l with
  | nil =>
    rw [List.nil_append, List.infix_cons_iff]
    constructor
    · rintro (h | h)
      · exact .inl (prefix_of_append_cons (l := []) hc h).isInfix
      · exact .inr h
    · rintro (h | h)
      · rw [List.infix_nil.mp h]
        exact Or.inl List.nil_prefix
      · exact .inr h
  | cons a l ih =>
    rw [List.cons_append, List.infix_cons_iff, List.infix_cons_iff, ih, or_assoc]
    constructor
    · rintro (h | h)
      · exact .inl (prefix_of_append_cons (l := a :: l) hc h)
      · exact .inr h
    · rintro (h | h)
      · exact .inl (h.trans (List.prefix_append (a :: l) _))
      · exact .inr h

/-- A text without digits stands before a number or behind it. -/
theorem infix_around {digits : List α} (hne : digits ≠ []) (hs : s ≠ [])
    (hdigits : ∀ c ∈ digits, c ∉ s) : s <:+: l ++ digits ++ m ↔ s <:+: l ∨ s <:+: m := by
  induction digits generalizing l with
  | nil => exact absurd rfl hne
  | cons c digits ih =>
    obtain ⟨hc, hrest⟩ := List.forall_mem_cons.mp hdigits
    rw [List.append_assoc, List.cons_append, infix_append_cons hc]
    cases digits with
    | nil => rw [List.nil_append]
    | cons d digits =>
      have hnil : ¬s <:+: [] := fun h => hs (List.infix_nil.mp h)
      have hih := ih (l := []) (List.cons_ne_nil d digits) hrest
      rw [List.nil_append] at hih
      rw [hih, or_iff_right hnil]

/-- A text is split at the last place of a separator in only one way. -/
theorem append_cons_inj_of_notMem_right {l' r r' : List α} {c : α} (hr : c ∉ r)
    (hr' : c ∉ r') (h : l ++ c :: r = l' ++ c :: r') : l = l' ∧ r = r' := by
  rcases List.append_eq_append_iff.mp h with ⟨s, hl, hs⟩ | ⟨s, hl, hs⟩
  · cases s with
    | nil => 
      rw [List.append_nil] at hl
      exact ⟨hl.symm, (List.cons.inj hs).2⟩
    | cons d s =>
      rw [List.cons_append] at hs
      exact absurd ((List.cons.inj hs).2 ▸ List.mem_append_right s List.mem_cons_self) hr
  · cases s with
    | nil =>
      rw [List.append_nil] at hl
      exact ⟨hl, ((List.cons.inj hs).2).symm⟩
    | cons d s =>
      rw [List.cons_append] at hs
      exact absurd ((List.cons.inj hs).2 ▸ List.mem_append_right s List.mem_cons_self) hr'

/-- A separator that ends with a character of its own is found at the end of a text that does
not have it. -/
theorem find_append {sub l m : List Char} {c : Char} (hc : c ∉ sub) (hl : ¬sub ++ [c] <:+: l) :
    find (String.ofList (sub ++ [c])) (String.ofList (l ++ (sub ++ [c]) ++ m)) =
      some l.length := by
  rw [find, List.find?_range_eq_some]
  simp only [String.toList_ofList]
  refine ⟨?_, ?_, ?_⟩
  · rw [List.append_assoc, List.drop_left, List.isPrefixOf_iff_prefix]
    exact List.prefix_append _ _
  · rw [List.mem_range]
    simp only [List.length_append]
    omega
  · intro j hj
    rw [Bool.not_eq_true', Bool.eq_false_iff, ne_eq, List.isPrefixOf_iff_prefix, List.append_assoc,
      List.drop_append_of_le_length hj.le]
    intro hprefix
    have hrest : 0 < (l.drop j).length := by
      rw [List.length_drop]
      omega
    rcases Nat.lt_or_ge sub.length (l.drop j).length with hlong | hshort
    · have hinside : sub ++ [c] <+: l.drop j := by
        refine List.prefix_of_prefix_length_le hprefix (List.prefix_append _ _) ?_
        rw [List.length_append, List.length_singleton]
        exact hlong
      exact hl (hinside.isInfix.trans (List.drop_suffix j l).isInfix)
    · -- the last character of the separator would stand inside the separator that follows
      have hplace : sub.length - (l.drop j).length < sub.length := by omega
      obtain ⟨rest, hrest⟩ := hprefix
      have hfound := congrArg (·[sub.length]?) hrest
      rw [List.append_assoc, List.append_assoc, List.getElem?_append_right le_rfl, Nat.sub_self,
        List.getElem?_append_right hshort, List.getElem?_append_left hplace] at hfound
      exact hc (List.mem_of_getElem? hfound.symm)

/-! Texts behind a path -/

/-- A text that no part of reaches into `m` is found in front of it. -/
theorem infix_append_of_not_prefix (hm : ¬s <:+: m)
    (hparts : ∀ part ∈ s.tails, part ≠ [] → ¬part <+: m) : s <:+: l ++ m ↔ s <:+: l := by
  rw [List.infix_append_iff_ne_nil]
  constructor
  · rintro (h | h | ⟨front, part, -, hpart, rfl, -, hprefix⟩)
    · exact h
    · exact absurd h hm
    · exact absurd hprefix
        (hparts part ((List.mem_tails _ _).mpr (List.suffix_append front part)) hpart)
  · exact fun h => Or.inl h

/-- Behind a text that ends with `c` a text is found where none of its parts after a `c` stands
at the start. -/
theorem infix_append_of_ending {c : α} (hl : l = [] ∨ [c] <:+ l) (hs : ¬s <:+: l)
    (hparts : ∀ part ∈ s.tails, part.head? = some c → part.tail <+: m → part.tail = []) :
    s <:+: l ++ m ↔ s <:+: m := by
  rcases hl with rfl | ⟨start, hstart⟩
  · rw [List.nil_append]
  rw [List.infix_append_iff_ne_nil]
  constructor
  · rintro (h | h | ⟨front, part, hfront, hpart, heq, ⟨before, hl⟩, hprefix⟩)
    · exact absurd h hs
    · exact h
    · -- the front part ends with the last character of `l`
      obtain ⟨front, d, rfl⟩ := (List.eq_nil_or_concat' front).resolve_left hfront
      rw [← hstart, ← List.append_assoc] at hl
      obtain ⟨-, rfl⟩ := List.append_singleton_inj.mp hl
      have hmem : d :: part ∈ s.tails := by
        rw [List.mem_tails, heq]
        exact ⟨front, by simp⟩
      exact absurd (hparts _ hmem rfl hprefix) hpart
  · exact fun h => Or.inr (Or.inl h)

/-- A replacement leaves alone what stands before the first place of the old text. -/
theorem replaceFrom_append {e new l m : List Char} {c : Char} (he : c ∉ e)
    (hl : ¬c :: e <:+: l) :
    replaceFrom (c :: e) new 0 (l ++ c :: m) = l ++ replaceFrom (c :: e) new 0 (c :: m) := by
  induction l with
  | nil => rfl
  | cons a l ih =>
    have hnot : ¬(c :: e).isPrefixOf (a :: (l ++ c :: m)) = true := by
      intro h
      obtain ⟨rfl, hprefix⟩ := List.cons_prefix_cons.mp (List.isPrefixOf_iff_prefix.mp h)
      have hinside : e <+: l := prefix_of_append_cons he hprefix
      exact hl (List.cons_prefix_cons.mpr ⟨rfl, hinside⟩).isInfix
    have hrest : ¬c :: e <:+: l := fun h => hl (h.trans (List.suffix_cons a l).isInfix)
    rw [List.cons_append, replaceFrom, if_neg hnot, ih hrest, List.cons_append]

end Belayer.Framework.Text
