import Mathlib.Data.List.Forall2
import Treewalk.Proofs.Text.Utf8
import Treewalk.Text.LowerCase

/-! ASCII words in any case. Lowering a text gives a word exactly if the text spells the word in
capitals and small letters, as long as no capital outside of ASCII stands for one of the letters. -/
namespace Treewalk.Text

def Spells (word : List Char) (t : Text) : Prop :=
  List.Forall₂ (fun b c => b = ascii c ∨ b = ascii c.toUpper) t word

theorem Spells.exists_letter {word : List Char} {t : Text} (spelled : Spells word t) {b : UInt8}
    (listed : b ∈ t) : ∃ c ∈ word, b = ascii c ∨ b = ascii c.toUpper := by
  induction spelled with
  | nil => simp at listed
  | cons letter _ ih =>
    rcases List.mem_cons.mp listed with rfl | later
    · exact ⟨_, List.mem_cons_self, letter⟩
    · obtain ⟨c, inWord, cased⟩ := ih later
      exact ⟨c, List.mem_cons_of_mem _ inWord, cased⟩

namespace Utf8

theorem encode_ascii {n : Nat} (small : n < 0x80) : encode n = [n.toUInt8] := by
  have scalar : isScalar n = true := by
    simp only [isScalar, Bool.or_eq_true, decide_eq_true_eq]
    omega
  simp only [encode, scalar, if_true, if_pos small]

theorem encode_large {n : Nat} (large : 0x80 ≤ n) :
    ∃ b rest, encode n = b :: rest ∧ 0x80 ≤ b.toNat := by
  obtain ⟨m, written, above, below⟩ : ∃ m, (if isScalar n then n else replacement) = m ∧
      0x80 ≤ m ∧ m < 0x110000 := by
    refine ⟨_, rfl, ?_⟩
    split
    · next scalar =>
      simp only [isScalar, Bool.or_eq_true, Bool.and_eq_true, decide_eq_true_eq] at scalar
      omega
    · decide
  simp only [encode, written, if_neg (by omega : ¬m < 0x80)]
  repeat' split
  all_goals
    refine ⟨_, _, rfl, ?_⟩
    rw [Nat.toUInt8, UInt8.toNat_ofNat']
    omega

theorem scan_ascii {b : UInt8} (small : b < 0x80) (rest : Text) :
    scan (b :: rest) = .inr b.toNat :: scan rest := scan_of_next? (if_pos small)

theorem large_of_next? {b : UInt8} {rest after : Text} {n : Nat} (large : ¬b < 0x80)
    (read : next? (b :: rest) = some (n, after)) : 0x80 ≤ n := by
  simp only [next?, if_neg large] at read
  split at read
  · cases read
  · next two =>
    have first : 0xC2 ≤ b.toNat := by simpa [UInt8.lt_iff_toNat_lt] using two
    split at read
    · split at read
      · obtain ⟨y, -, same⟩ := Option.map_eq_some_iff.mp read
        cases same
        omega
      · cases read
    -- Longer forms are checked against the least code point of their length.
    · simp only [Option.bind_eq_bind] at read
      repeat' split at read
      all_goals simp only [Option.bind_eq_some_iff, Option.ite_none_right_eq_some,
        Bool.and_eq_true, decide_eq_true_eq, reduceCtorEq] at read
      · obtain ⟨y, -, z, -, valid, same⟩ := read
        cases same
        omega
      · obtain ⟨x, -, y, -, z, -, valid, same⟩ := read
        cases same
        omega

end Utf8

theorem lowered_ascii {b : UInt8} (small : b < 0x80) (rest : Text) :
    lowered (b :: rest) = (lowerPoint b.toNat).toUInt8 :: lowered rest := by
  have point : lowerPoint b.toNat < 0x80 := by
    have number : b.toNat < 0x80 := UInt8.lt_iff_toNat_lt.mp small
    have last : 'Z'.toNat = 90 := rfl
    unfold lowerPoint
    split
    · omega
    · rw [if_neg (by omega), if_neg (by omega)]
      exact number
  rw [lowered, Utf8.scan_ascii small, List.flatMap_cons]
  exact congrArg (· ++ lowered rest) (Utf8.encode_ascii point)

/-- Lowering what is not ASCII gives no ASCII, but for the two letters that have such capitals. -/
theorem lowered_other {b : UInt8} (large : ¬b < 0x80) (rest : Text) :
    ∃ a after, lowered (b :: rest) = a :: after ∧
      (0x80 ≤ a.toNat ∨ a = ascii 'i' ∨ a = ascii 'k') := by
  rw [lowered, Utf8.scan]
  split
  · next n after read =>
    have outside := Utf8.large_of_next? large read
    rw [List.flatMap_cons]
    dsimp only
    have last : 'Z'.toNat = 90 := rfl
    unfold lowerPoint
    rw [if_neg (by omega)]
    repeat' split
    · exact ⟨_, _, rfl, .inr (.inl (by decide))⟩
    · exact ⟨_, _, rfl, .inr (.inr (by decide))⟩
    · obtain ⟨a, more, written, octet⟩ := Utf8.encode_large outside
      exact ⟨a, _, by rw [written]; rfl, .inl octet⟩
  · exact ⟨b, _, rfl, .inl (by simpa [UInt8.lt_iff_toNat_lt] using large)⟩

def extensionLetters : List Char := ['.', 'a', 'l', 'm', 'y']

theorem lower_letter {c : Char} (letter : c ∈ extensionLetters) (b : UInt8) :
    (b < 0x80 ∧ (lowerPoint b.toNat).toUInt8 = ascii c ↔ b = ascii c ∨ b = ascii c.toUpper) ∧
      (ascii c).toNat < 0x80 ∧ ascii c ≠ ascii 'i' ∧ ascii c ≠ ascii 'k' := by
  -- A letter lies 32 behind its capital, and the point is its own capital in front of them all.
  have place : (ascii c).toNat ≤ 122 ∧ ascii c ≠ ascii 'i' ∧ ascii c ≠ ascii 'k' ∧
      ((ascii c.toUpper).toNat + 32 = (ascii c).toNat ∧ 65 ≤ (ascii c.toUpper).toNat ∨
        (ascii c.toUpper).toNat = (ascii c).toNat ∧ (ascii c).toNat < 65) := by
    simp only [extensionLetters, List.mem_cons, List.not_mem_nil, or_false] at letter
    rcases letter with rfl | rfl | rfl | rfl | rfl <;> decide
  have number := b.toNat_lt
  have point : lowerPoint b.toNat = if 65 ≤ b.toNat ∧ b.toNat ≤ 90 then b.toNat + 32
      else if b.toNat = 0x130 then 105 else if b.toNat = 0x212A then 107 else b.toNat := rfl
  refine ⟨?_, by omega, place.2.1, place.2.2.1⟩
  simp only [← UInt8.toNat_inj, UInt8.lt_iff_toNat_lt, Nat.toUInt8, UInt8.toNat_ofNat']
  change b.toNat < 0x80 ∧ lowerPoint b.toNat % 256 = (ascii c).toNat ↔ _
  rw [point]
  split
  · omega
  · rw [if_neg (by omega), if_neg (by omega)]
    omega

theorem lowered_eq_iff {word : List Char} (letters : ∀ c ∈ word, c ∈ extensionLetters) (t : Text) :
    lowered t = word.map ascii ↔ Spells word t := by
  have nothing : lowered [] = [] := by rw [lowered, Utf8.scan]; rfl
  induction t generalizing word with
  | nil => cases word <;> simp [nothing, Spells]
  | cons b rest ih =>
    cases word with
    | nil =>
      have more : lowered (b :: rest) ≠ [] := by
        by_cases small : b < 0x80
        · simp [lowered_ascii small]
        · obtain ⟨a, after, lower, -⟩ := lowered_other small rest
          simp [lower]
      simp [more, Spells]
    | cons c word =>
      obtain ⟨letter, letters⟩ := List.forall_mem_cons.mp letters
      obtain ⟨entry, octet, notI, notK⟩ := lower_letter letter b
      rw [Spells, List.forall₂_cons, ← entry, List.map_cons]
      by_cases small : b < 0x80
      · have tail : lowered rest = word.map ascii ↔ Spells word rest := ih letters
        rw [lowered_ascii small, List.cons.injEq, tail, Spells]
        simp [small]
      · obtain ⟨a, after, lower, outside⟩ := lowered_other small rest
        have other : a ≠ ascii c := by
          rintro rfl
          rcases outside with large | isI | isK
          · omega
          · exact notI isI
          · exact notK isK
        simp [lower, other, small]

end Treewalk.Text
