import Mathlib.Data.List.Lex
import Mathlib.Data.String.Basic

/-!
# The order of names

Names are compared character by character, by the numbers of the characters.  The bytes of their
encodings are then compared in the same way (`nameBytes_lt_iff`): of two characters the smaller one
has the smaller first byte or, when the encodings begin alike, the smaller byte where they part.
-/

namespace RecordRing

/-- The bytes of a name. -/
def nameBytes (name : String) : List UInt8 := name.toByteArray.data.toList

theorem nameBytes_eq (name : String) :
    nameBytes name = name.toList.flatMap String.utf8EncodeChar := by
  have hencoded : (String.ofList name.toList).toByteArray = name.toList.utf8Encode :=
    String.toByteArray_ofList
  rw [String.ofList_toList] at hencoded
  rw [nameBytes, hencoded, List.utf8Encode, List.toList_data_toByteArray]

/-- The digits of a number in base 64, of which there are four. -/
theorem exists_digits {n : Nat} (small : n < 1114112) : ∃ first second third last,
    first < 8 ∧ second < 64 ∧ third < 64 ∧ last < 64 ∧
      n = 262144 * first + 4096 * second + 64 * third + last ∧
      n / 262144 % 8 = first ∧ n / 4096 % 64 = second ∧ n / 64 % 64 = third ∧ n % 64 = last := by
  refine ⟨n / 262144, n / 4096 % 64, n / 64 % 64, n % 64, ?_⟩
  omega

theorem four_bytes_lt {m n : Nat} (less : m < n) (small : n < 1114112)
    (after behind : List UInt8) :
    [UInt8.ofNat (m / 262144 % 8 + 240), UInt8.ofNat (m / 4096 % 64 + 128),
      UInt8.ofNat (m / 64 % 64 + 128), UInt8.ofNat (m % 64 + 128)] ++ after <
    [UInt8.ofNat (n / 262144 % 8 + 240), UInt8.ofNat (n / 4096 % 64 + 128),
      UInt8.ofNat (n / 64 % 64 + 128), UInt8.ofNat (n % 64 + 128)] ++ behind := by
  obtain ⟨m₃, m₂, m₁, m₀, hm₃, hm₂, hm₁, hm₀, hm, em₃, em₂, em₁, em₀⟩ :=
    exists_digits (less.trans small)
  obtain ⟨n₃, n₂, n₁, n₀, hn₃, hn₂, hn₁, hn₀, hn, en₃, en₂, en₁, en₀⟩ := exists_digits small
  simp only [List.cons_append, List.nil_append, List.cons_lt_cons_iff, UInt8.lt_iff_toNat_lt,
    ← UInt8.toNat_inj, UInt8.toNat_ofNat', em₃, em₂, em₁, em₀, en₃, en₂, en₁, en₀]
  clear em₃ em₂ em₁ em₀ en₃ en₂ en₁ en₀
  omega

/-- Whatever follows them, the bytes of the smaller one of two characters come first. -/
theorem utf8EncodeChar_append_lt {a b : Char} (less : a < b) (after behind : List UInt8) :
    String.utf8EncodeChar a ++ after < String.utf8EncodeChar b ++ behind := by
  have hless : a.val.toNat < b.val.toNat := less
  have hlast : b.val.toNat < 1114112 := by
    rcases b.valid with h | ⟨-, h⟩
    · exact Nat.lt_trans h (by decide)
    · exact h
  simp only [String.utf8EncodeChar]
  generalize a.val.toNat = m at hless ⊢
  generalize b.val.toNat = n at hless hlast ⊢
  by_cases hlarge : m ≤ 65535
  · split_ifs
    all_goals
      simp only [List.cons_append, List.nil_append, List.cons_lt_cons_iff, UInt8.lt_iff_toNat_lt,
        ← UInt8.toNat_inj, UInt8.toNat_ofNat']
      omega
  · have hm : ¬ m ≤ 127 ∧ ¬ m ≤ 2047 := by omega
    have hn : ¬ n ≤ 127 ∧ ¬ n ≤ 2047 ∧ ¬ n ≤ 65535 := by omega
    rw [if_neg hm.1, if_neg hm.2, if_neg hlarge, if_neg hn.1, if_neg hn.2.1, if_neg hn.2.2]
    exact four_bytes_lt hless hlast after behind

/-- The bytes of the smaller one of two lists of characters come first. -/
theorem flatMap_utf8EncodeChar_lt {first second : List Char} (less : first < second) :
    first.flatMap String.utf8EncodeChar < second.flatMap String.utf8EncodeChar := by
  induction less with
  | @nil b rest =>
      rw [List.flatMap_nil, List.flatMap_cons]
      cases h : String.utf8EncodeChar b with
      | nil => exact absurd h String.utf8EncodeChar_ne_nil
      | cons byte bytes => exact .nil
  | @cons a first second _ ih =>
      rw [List.flatMap_cons, List.flatMap_cons]
      exact List.append_left_lt ih
  | @rel a first b second h =>
      rw [List.flatMap_cons, List.flatMap_cons]
      exact utf8EncodeChar_append_lt h _ _

/-- Names are in the order of their bytes. -/
theorem nameBytes_lt_iff {a b : String} : nameBytes a < nameBytes b ↔ a < b := by
  have hless : ∀ {a b : String}, a < b → nameBytes a < nameBytes b := by
    intro a b less
    rw [nameBytes_eq, nameBytes_eq]
    exact flatMap_utf8EncodeChar_lt less
  constructor
  · intro hbytes
    rcases lt_trichotomy a b with h | rfl | h
    · exact h
    · exact absurd hbytes (List.lt_irrefl _)
    · exact absurd hbytes (List.lt_asymm (hless h))
  · exact hless

end RecordRing
