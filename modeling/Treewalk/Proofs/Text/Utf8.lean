import Treewalk.Text.Utf8

/-! The octets of a string are the UTF-8 forms of its characters, one after the other, and
scanning them gives the characters back. -/
namespace Treewalk.Text

theorem ofString_eq_flatMap (s : String) :
    ofString s = s.toList.flatMap String.utf8EncodeChar := by
  have octets : s.toUTF8 = (s.toList.flatMap String.utf8EncodeChar).toByteArray :=
    String.utf8Encode_toList.symm
  rw [ofString, octets, List.data_toByteArray]

theorem ofString_inj {s t : String} : ofString s = ofString t ↔ s = t := by
  constructor
  · intro same
    have octets : s.toUTF8 = t.toUTF8 := ByteArray.ext (Array.toList_inj.mp same)
    exact String.toByteArray_inj.mp octets
  · exact congrArg ofString

namespace Utf8

theorem toNat_cases (c : Char) : c.toNat < 0xD800 ∨ 0xDFFF < c.toNat ∧ c.toNat < 0x110000 := c.valid

theorem isScalar_toNat (c : Char) : isScalar c.toNat = true := by
  have valid := toNat_cases c
  simpa [isScalar] using valid

theorem encode_toNat (c : Char) : encode c.toNat = String.utf8EncodeChar c := by
  have valid := toNat_cases c
  have scalar := isScalar_toNat c
  have number : c.val.toNat = c.toNat := rfl
  dsimp only [encode, String.utf8EncodeChar, Nat.toUInt8]
  rw [if_pos scalar, number]
  generalize c.toNat = n at valid
  by_cases one : n < 0x80
  · rw [if_pos one, if_pos (by omega)]
  rw [if_neg one, if_neg (by omega : ¬n ≤ 127)]
  by_cases two : n < 0x800
  · rw [if_pos two, if_pos (by omega), Nat.mod_eq_of_lt (by omega : n / 64 < 32),
      Nat.add_comm 0xC0, Nat.add_comm 0x80]
  rw [if_neg two, if_neg (by omega : ¬n ≤ 2047)]
  by_cases three : n < 0x10000
  · rw [if_pos three, if_pos (by omega), Nat.mod_eq_of_lt (by omega : n / 4096 < 16),
      Nat.add_comm 0xE0, Nat.add_comm 0x80, Nat.add_comm 0x80]
  · rw [if_neg three, if_neg (by omega), Nat.mod_eq_of_lt (by omega : n / 262144 < 8),
      Nat.add_comm 0xF0, Nat.add_comm 0x80, Nat.add_comm 0x80, Nat.add_comm 0x80]

theorem octet_cases {c : Char} {b : UInt8} (listed : b ∈ String.utf8EncodeChar c) :
    b.toNat = c.toNat ∨ 0x80 ≤ b.toNat := by
  have number : c.val.toNat = c.toNat := rfl
  dsimp only [String.utf8EncodeChar] at listed
  rw [number] at listed
  split at listed
  · left
    rw [List.mem_singleton.mp listed, UInt8.toNat_ofNat']
    omega
  right
  repeat' split at listed
  all_goals
    simp only [List.mem_cons, List.not_mem_nil, or_false] at listed
    rcases listed with rfl | rfl | rfl | rfl
    all_goals
      rw [UInt8.toNat_ofNat']
      omega

theorem ne_ascii_of_mem {a c : Char} (small : a.toNat < 0x80) (other : c ≠ a) {b : UInt8}
    (listed : b ∈ String.utf8EncodeChar c) : b ≠ ascii a := by
  intro equal
  have octet : b.toNat = a.toNat := by
    rw [equal, ascii, Char.toUInt8, UInt32.toNat_toUInt8]
    exact Nat.mod_eq_of_lt (Nat.lt_trans small (by decide))
  obtain same | large := octet_cases listed
  · exact other (Char.toNat_inj.mp (same.symm.trans octet))
  · omega

theorem toNat_octet {m : Nat} (small : m < 0x100) : m.toUInt8.toNat = m := by
  rw [Nat.toUInt8, UInt8.toNat_ofNat', Nat.mod_eq_of_lt small]

theorem continuation?_octet (m : Nat) :
    continuation? (0x80 + m % 0x40).toUInt8 = some (m % 0x40) := by
  have number : (0x80 + m % 0x40).toUInt8.toNat = 0x80 + m % 0x40 := toNat_octet (by omega)
  rw [continuation?, if_pos, number, Nat.add_sub_cancel_left]
  rw [Bool.and_eq_true, decide_eq_true_eq, decide_eq_true_eq, UInt8.le_iff_toNat_le,
    UInt8.lt_iff_toNat_lt, number]
  exact ⟨Nat.le_add_right .., Nat.add_lt_add_left (Nat.mod_lt m (by decide)) 0x80⟩

section Forms

variable {a b c d : UInt8} {x y z n : Nat} {rest : Text}

theorem next?_two (low : 0xC2 ≤ a.toNat) (high : a.toNat < 0xE0) (second : continuation? b = some z)
    (value : (a.toNat - 0xC0) * 0x40 + z = n) : next? (a :: b :: rest) = some (n, rest) := by
  simp only [next?, UInt8.lt_iff_toNat_lt, UInt8.reduceToNat]
  rw [if_neg (by omega), if_neg (by omega), if_pos high, second, Option.map_some, value]

theorem next?_three (low : 0xE0 ≤ a.toNat) (high : a.toNat < 0xF0)
    (second : continuation? b = some y) (third : continuation? c = some z)
    (value : (a.toNat - 0xE0) * 0x1000 + y * 0x40 + z = n)
    (valid : (0x800 ≤ n && isScalar n) = true) : next? (a :: b :: c :: rest) = some (n, rest) := by
  simp only [next?, UInt8.lt_iff_toNat_lt, UInt8.reduceToNat]
  rw [if_neg (by omega), if_neg (by omega), if_neg (by omega), if_pos high]
  refine Option.bind_eq_some_iff.mpr ⟨y, second, Option.bind_eq_some_iff.mpr ⟨z, third, ?_⟩⟩
  rw [value, if_pos valid]

theorem next?_four (low : 0xF0 ≤ a.toNat) (high : a.toNat < 0xF5)
    (second : continuation? b = some x) (third : continuation? c = some y)
    (fourth : continuation? d = some z)
    (value : (a.toNat - 0xF0) * 0x40000 + x * 0x1000 + y * 0x40 + z = n)
    (valid : (0x10000 ≤ n && isScalar n) = true) :
    next? (a :: b :: c :: d :: rest) = some (n, rest) := by
  simp only [next?, UInt8.lt_iff_toNat_lt, UInt8.reduceToNat]
  rw [if_neg (by omega), if_neg (by omega), if_neg (by omega), if_neg (by omega), if_pos high]
  refine Option.bind_eq_some_iff.mpr ⟨x, second, Option.bind_eq_some_iff.mpr ⟨y, third, ?_⟩⟩
  refine Option.bind_eq_some_iff.mpr ⟨z, fourth, ?_⟩
  rw [value, if_pos valid]

end Forms

theorem next?_encode {n : Nat} (scalar : isScalar n = true) (rest : Text) :
    next? (encode n ++ rest) = some (n, rest) := by
  have bound : n < 0x110000 := by
    simp only [isScalar, Bool.or_eq_true, Bool.and_eq_true, decide_eq_true_eq] at scalar
    omega
  have valid (least : Nat) (above : least ≤ n) : (least ≤ n && isScalar n) = true := by
    rw [scalar, decide_eq_true above, Bool.and_true]
  dsimp only [encode]
  rw [if_pos scalar]
  split
  · next one =>
    have octet : n.toUInt8.toNat = n := toNat_octet (by omega)
    have small : n.toUInt8 < 0x80 := UInt8.lt_iff_toNat_lt.mpr (octet.symm ▸ one)
    exact (if_pos small).trans (by rw [octet]; rfl)
  split
  · next one two =>
    have lead : (0xC0 + n / 0x40).toUInt8.toNat = 0xC0 + n / 0x40 := toNat_octet (by omega)
    exact next?_two (by omega) (by omega) (continuation?_octet _) (by omega)
  split
  · next two three =>
    have lead : (0xE0 + n / 0x1000).toUInt8.toNat = 0xE0 + n / 0x1000 := toNat_octet (by omega)
    exact next?_three (by omega) (by omega) (continuation?_octet _) (continuation?_octet _)
      (by omega) (valid 0x800 (by omega))
  · next two three =>
    have lead : (0xF0 + n / 0x40000).toUInt8.toNat = 0xF0 + n / 0x40000 := toNat_octet (by omega)
    exact next?_four (by omega) (by omega) (continuation?_octet _) (continuation?_octet _)
      (continuation?_octet _) (by omega) (valid 0x10000 (by omega))

theorem scan_of_next? {t rest : Text} {n : Nat} (read : next? t = some (n, rest)) :
    scan t = .inr n :: scan rest := by
  cases t with
  | nil => cases read
  | cons b after =>
    rw [scan]
    split
    · next m left other =>
      rw [read] at other
      cases other
      rfl
    · next other =>
      rw [read] at other
      cases other

theorem scan_encode {n : Nat} (scalar : isScalar n = true) (rest : Text) :
    scan (encode n ++ rest) = .inr n :: scan rest := scan_of_next? (next?_encode scalar rest)

end Utf8

theorem scan_ofString (s : String) :
    Utf8.scan (ofString s) = s.toList.map fun c => .inr c.toNat := by
  rw [ofString_eq_flatMap]
  induction s.toList with
  | nil => rw [List.flatMap_nil, Utf8.scan, List.map_nil]
  | cons c chars ih =>
    rw [List.flatMap_cons, ← Utf8.encode_toNat, Utf8.scan_encode (Utf8.isScalar_toNat c), ih,
      List.map_cons]

theorem cleaned_ofString (s : String) : Utf8.cleaned (ofString s) = ofString s := by
  rw [Utf8.cleaned, scan_ofString, ofString_eq_flatMap, List.flatMap_map]
  simp only [Utf8.encode_toNat]

end Treewalk.Text
