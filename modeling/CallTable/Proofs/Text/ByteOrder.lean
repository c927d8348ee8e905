import Mathlib.Algebra.Group.Nat.Defs
import Mathlib.Tactic.SplitIfs

/-!
# The order of texts and of their bytes

Texts are compared code point by code point. Their bytes of UTF-8, compared one by one, come in the
same order: the first byte of a character grows with its code point, and of two characters with the
same first byte the continuation bytes are the remaining digits of the code point to the base 64.
`utf8_lt_of_lt` is used for the order in which a table is listed.
-/

namespace CallTable.Text

/-- The code points of characters are below the end of Unicode. -/
theorem code_lt (c : Char) : c.val.toNat < 0x110000 := by
  have hvalid := c.valid
  simp only [UInt32.isValidChar, Nat.isValidChar] at hvalid
  omega

/-! ## Bytes as digits -/

/-- How a code point is written: its first byte, which is the mark of how many continuation bytes
follow and the first digits, and that number. -/
def firstByte (code : Nat) : Nat × Nat :=
  if code ≤ 0x7F then (code, 0)
  else if code ≤ 0x7FF then (code / 64 ^ 1 + 0xC0, 1)
  else if code ≤ 0xFFFF then (code / 64 ^ 2 + 0xE0, 2)
  else (code / 64 ^ 3 + 0xF0, 3)

/-- The last digits of a code point to the base 64, each of them in a continuation byte. -/
def continuation : Nat → Nat → List UInt8
  | 0, _ => []
  | count + 1, code => continuation count (code / 64) ++ [UInt8.ofNat (code % 64 + 0x80)]

/-- The bytes of a character are the first byte of its code point and continuation bytes. -/
theorem utf8EncodeChar_eq_cons (c : Char) :
    String.utf8EncodeChar c = UInt8.ofNat (firstByte c.val.toNat).1 ::
      continuation (firstByte c.val.toNat).2 c.val.toNat := by
  have hmax := code_lt c
  fun_cases String.utf8EncodeChar c with
  | case1 code hone =>
      rw [firstByte, if_pos hone]
      rfl
  | case2 code hone htwo =>
      change _ = UInt8.ofNat (firstByte code).1 :: continuation (firstByte code).2 code
      have hlead : code / 64 % 32 = code / 64 := Nat.mod_eq_of_lt (by omega)
      rw [firstByte, if_neg hone, if_pos htwo, hlead]
      rfl
  | case3 code hone htwo hthree =>
      change _ = UInt8.ofNat (firstByte code).1 :: continuation (firstByte code).2 code
      have hlead : code / 4096 % 16 = code / 4096 := Nat.mod_eq_of_lt (by omega)
      rw [firstByte, if_neg hone, if_neg htwo, if_pos hthree, hlead]
      rfl
  | case4 code hone htwo hthree =>
      change _ = UInt8.ofNat (firstByte code).1 :: continuation (firstByte code).2 code
      have hlead : code / 262144 % 8 = code / 262144 := Nat.mod_eq_of_lt (by omega)
      have hhigher : code / 64 / 64 = code / 4096 := Nat.div_div_eq_div_mul code 64 64
      rw [firstByte, if_neg hone, if_neg htwo, if_neg hthree, hlead, continuation, continuation,
        hhigher]
      rfl

/-- A larger code point has a larger first byte, or the same one, and then as many continuation
bytes and the same digits before those. -/
theorem firstByte_lt_or {code other : Nat} (h : code < other) (hmax : other < 0x110000) :
    (firstByte code).1 < (firstByte other).1 ∧ (firstByte other).1 < 256 ∨
      firstByte code = firstByte other ∧
        code / 64 ^ (firstByte code).2 = other / 64 ^ (firstByte code).2 := by
  unfold firstByte
  split_ifs <;> grind

/-- With the same digits before them, the digits of a larger number come later. -/
theorem continuation_lt {count code other : Nat} (h : code < other)
    (hhead : code / 64 ^ count = other / 64 ^ count) (first second : List UInt8) :
    continuation count code ++ first < continuation count other ++ second := by
  induction count generalizing code other first second with
  | zero =>
      rw [Nat.pow_zero, Nat.div_one, Nat.div_one] at hhead
      exact absurd hhead (Nat.ne_of_lt h)
  | succ count ih =>
      rw [continuation, continuation, List.append_assoc, List.append_assoc]
      rcases Nat.lt_or_ge (code / 64) (other / 64) with hhigher | hhigher
      · refine ih hhigher ?_ _ _
        rwa [Nat.div_div_eq_div_mul, Nat.div_div_eq_div_mul, ← Nat.pow_succ']
      · have hsame : code / 64 = other / 64 := by omega
        have hlast : UInt8.ofNat (code % 64 + 0x80) < UInt8.ofNat (other % 64 + 0x80) := by
          have hbyte : ∀ digit, digit % 64 + 0x80 < UInt8.size := by
            intro digit
            show digit % 64 + 0x80 < 256
            omega
          exact (UInt8.ofNat_lt_iff_lt (hbyte code) (hbyte other)).2 (by omega)
        rw [hsame]
        exact List.append_left_lt (List.cons_lt_cons_iff.2 (.inl hlast))

/-! ## Characters and texts -/

/-- The bytes of a larger character come later, whatever follows them. -/
theorem utf8EncodeChar_lt {c d : Char} (h : c < d) (first second : List UInt8) :
    String.utf8EncodeChar c ++ first < String.utf8EncodeChar d ++ second := by
  rw [utf8EncodeChar_eq_cons, utf8EncodeChar_eq_cons, List.cons_append, List.cons_append,
    List.cons_lt_cons_iff]
  have hcode : c.val.toNat < d.val.toNat := h
  rcases firstByte_lt_or hcode (code_lt d) with ⟨hlead, hbyte⟩ | ⟨hlead, hhead⟩
  · exact .inl ((UInt8.ofNat_lt_iff_lt (Nat.lt_trans hlead hbyte) hbyte).2 hlead)
  · refine .inr ⟨by rw [hlead], ?_⟩
    rw [← hlead]
    exact continuation_lt hcode hhead first second

/-- Characters that come before others have bytes that come before theirs. -/
theorem flatMap_utf8EncodeChar_lt {chars others : List Char} (h : chars < others) :
    chars.flatMap String.utf8EncodeChar < others.flatMap String.utf8EncodeChar := by
  induction h with
  | nil =>
      rw [List.flatMap_nil, List.flatMap_cons, utf8EncodeChar_eq_cons]
      exact List.nil_lt_cons _ _
  | rel hfirst =>
      rw [List.flatMap_cons, List.flatMap_cons]
      exact utf8EncodeChar_lt hfirst _ _
  | cons _ ih =>
      rw [List.flatMap_cons, List.flatMap_cons]
      exact List.append_left_lt ih

/-- The bytes of a text are those of its characters. -/
theorem toUTF8_eq_flatMap (text : String) :
    text.toUTF8.data.toList = text.toList.flatMap String.utf8EncodeChar := by
  rw [← String.ofList_toList (s := text), String.toUTF8_eq_toByteArray,
    String.toByteArray_ofList, String.toList_ofList]
  exact List.toList_data_toByteArray

/-- A text that comes before another one has bytes that come before those of the other. -/
theorem utf8_lt_of_lt {text other : String} (h : text < other) :
    text.toUTF8.data.toList < other.toUTF8.data.toList := by
  have hchars : text.toList < other.toList := h
  rw [toUTF8_eq_flatMap, toUTF8_eq_flatMap]
  exact flatMap_utf8EncodeChar_lt hchars

end CallTable.Text
