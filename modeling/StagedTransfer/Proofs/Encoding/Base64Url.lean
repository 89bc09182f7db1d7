import Mathlib.Tactic.Lemma
import StagedTransfer.Encoding.Base64Url

/-!
# Base64 read back

Whatever bytes have been written in base64, whether three at a time or with one or two left over,
are read back, and no character that is written is a dot or an equals sign.
-/

namespace StagedTransfer.Base64Url

lemma value?_digit : ∀ n < 64, value? (digit n) = some n := by
  decide

lemma ofNat_eq {a : UInt8} {n : Nat} (h : n = a.toNat) : UInt8.ofNat n = a := by
  rw [h, UInt8.ofNat_toNat]

lemma decode?_encode_one (a : UInt8) : decode? (encode [a]) = some [a] := by
  have ha := a.toNat_lt
  have high := value?_digit (a.toNat / 4) (by omega)
  have low := value?_digit (a.toNat % 4 * 16) (by omega)
  have whole : a.toNat / 4 * 64 + a.toNat % 4 * 16 = a.toNat * 16 := by omega
  simp only [encode, decode?, high, low, Option.bind_eq_bind, Option.bind_some, whole,
    Nat.mul_mod_left, if_true]
  rw [ofNat_eq (a := a) (by omega)]
  rfl

lemma decode?_encode_two (a b : UInt8) : decode? (encode [a, b]) = some [a, b] := by
  have ha := a.toNat_lt
  have hb := b.toNat_lt
  generalize hn : a.toNat * 256 + b.toNat = n
  have first := value?_digit (n / 1024) (by omega)
  have second := value?_digit (n / 16 % 64) (by omega)
  have third := value?_digit (n % 16 * 4) (by omega)
  have whole : (n / 1024 * 64 + n / 16 % 64) * 64 + n % 16 * 4 = n * 4 := by omega
  simp only [encode, decode?, hn, first, second, third, Option.bind_eq_bind, Option.bind_some,
    whole, Nat.mul_mod_left, if_true]
  rw [ofNat_eq (a := a) (by omega), ofNat_eq (a := b) (by omega)]
  rfl

lemma decode?_encode_three (a b c : UInt8) (s : Bytes) :
    decode? (encode (a :: b :: c :: s)) = (decode? (encode s)).map (a :: b :: c :: ·) := by
  have ha := a.toNat_lt
  have hb := b.toNat_lt
  have hc := c.toNat_lt
  generalize hn : (a.toNat * 256 + b.toNat) * 256 + c.toNat = n
  have first := value?_digit (n / 262144) (by omega)
  have second := value?_digit (n / 4096 % 64) (by omega)
  have third := value?_digit (n / 64 % 64) (by omega)
  have fourth := value?_digit (n % 64) (by omega)
  have whole :
      ((n / 262144 * 64 + n / 4096 % 64) * 64 + n / 64 % 64) * 64 + n % 64 = n := by omega
  simp only [encode, decode?, hn, first, second, third, fourth, Option.bind_eq_bind,
    Option.bind_some, whole]
  rw [ofNat_eq (a := a) (by omega), ofNat_eq (a := b) (by omega), ofNat_eq (a := c) (by omega)]
  cases decode? (encode s) <;> rfl

/-- Reading undoes writing. -/
theorem decode?_encode (s : Bytes) : decode? (encode s) = some s := by
  match s with
  | []              => rfl
  | [a]             => exact decode?_encode_one a
  | [a, b]          => exact decode?_encode_two a b
  | a :: b :: c :: s => rw [decode?_encode_three, decode?_encode s, Option.map_some]

lemma digit_ne (n : Nat) : digit n ≠ '.' ∧ digit n ≠ '=' := by
  by_cases small : n < 64
  · revert n
    decide
  · have last : digit n = '_' := by
      simp only [digit]
      rw [if_neg (by omega), if_neg (by omega), if_neg (by omega), if_neg (by omega)]
    rw [last]
    decide

/-- What is written is neither a dot nor padding. -/
lemma ne_of_mem_encode {s : Bytes} {c : Char} (h : c ∈ encode s) : c ≠ '.' ∧ c ≠ '=' := by
  fun_induction encode s with
  | case1 => simp at h
  | case2 a n =>
    simp only [List.mem_cons, List.not_mem_nil, or_false] at h
    rcases h with rfl | rfl <;> exact digit_ne _
  | case3 a b n =>
    simp only [List.mem_cons, List.not_mem_nil, or_false] at h
    rcases h with rfl | rfl | rfl <;> exact digit_ne _
  | case4 a b c s n ih =>
    simp only [List.mem_cons] at h
    rcases h with rfl | rfl | rfl | rfl | h
    · exact digit_ne _
    · exact digit_ne _
    · exact digit_ne _
    · exact digit_ne _
    · exact ih h

end StagedTransfer.Base64Url
