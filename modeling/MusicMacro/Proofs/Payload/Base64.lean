import Mathlib.Tactic.Lemma
import MusicMacro.Payload.Base64

/-!
# Base64 can be read back

Reading the text of bytes gives the bytes (`decode_encode`).  The reader takes the characters of
whole groups one after the other (`decodeFrom_symbol`, `decodeFrom_group`), and the padding
completes the last group; no symbol of the alphabet is the padding, so nothing ends too early.
-/

namespace MusicMacro.Base64

lemma value?_symbol {n : Nat} (h : n < 64) : value? (symbol n) = some n := by
  have hall : ∀ i : Fin 64, value? (symbol i) = some (i : Nat) := by decide +kernel
  exact hall ⟨n, h⟩

lemma symbol_ne_pad {n : Nat} (h : n < 64) : symbol n ≠ '=' := by
  have hall : ∀ i : Fin 64, symbol i ≠ '=' := by decide +kernel
  exact hall ⟨n, h⟩

lemma symbol_toNat_lt {n : Nat} (h : n < 64) : (symbol n).toNat < 128 := by
  have hall : ∀ i : Fin 64, (symbol i).toNat < 128 := by decide +kernel
  exact hall ⟨n, h⟩

section

variable (count : Nat) {group : List Nat} {n : Nat} (rest : List Char)

/-- A symbol joins a group that it does not complete. -/
lemma decodeFrom_symbol (h : n < 64) (hgroup : group.length ≠ 3) :
    decodeFrom count group 0 (symbol n :: rest) = decodeFrom count (group ++ [n]) 0 rest := by
  rw [decodeFrom, if_neg (symbol_ne_pad h), value?_symbol h]
  simp [hgroup]

/-- A symbol that completes a group gives its bytes. -/
lemma decodeFrom_group (h : n < 64) (hgroup : group.length = 3) :
    decodeFrom count group 0 (symbol n :: rest) =
      (decodeFrom (count + 4) [] 0 rest).map (groupBytes (group ++ [n]) ++ ·) := by
  rw [decodeFrom, if_neg (symbol_ne_pad h), value?_symbol h]
  simp [hgroup]

end

lemma decodeFrom_encode (count : Nat) (bytes : List UInt8) :
    decodeFrom count [] 0 (encode bytes) = .ok bytes := by
  fun_induction encode bytes generalizing count with
  | case1 => rfl
  | case2 a n =>
      have ha := a.toNat_lt
      rw [decodeFrom_symbol count _ (by omega) (by simp),
        decodeFrom_symbol count _ (by omega) (by simp)]
      have hbyte : n / 64 * 64 + n % 64 = a.toNat * 16 := by omega
      simp [decodeFrom, groupBytes, hbyte]
  | case3 a b n =>
      have ha := a.toNat_lt
      have hb := b.toNat_lt
      rw [decodeFrom_symbol count _ (by omega) (by simp),
        decodeFrom_symbol count _ (by omega) (by simp),
        decodeFrom_symbol count _ (by omega) (by simp)]
      have hbytes : (n / 4096 * 64 + n / 64 % 64) * 64 + n % 64 = n := by omega
      have hfirst : n / 1024 = a.toNat := by omega
      have hsecond : n / 4 % 256 = b.toNat := by omega
      simp [decodeFrom, groupBytes, hbytes, hfirst, hsecond]
  | case4 a b c rest n ih =>
      have ha := a.toNat_lt
      have hb := b.toNat_lt
      have hc := c.toNat_lt
      rw [decodeFrom_symbol count _ (by omega) (by simp),
        decodeFrom_symbol count _ (by omega) (by simp),
        decodeFrom_symbol count _ (by omega) (by simp),
        decodeFrom_group count _ (by omega) (by simp), ih]
      have hbytes : ((n / 262144 * 64 + n / 4096 % 64) * 64 + n / 64 % 64) * 64 + n % 64 = n := by
        omega
      have hfirst : n / 65536 = a.toNat := by omega
      have hsecond : n / 256 % 256 = b.toNat := by omega
      have hthird : n % 256 = c.toNat := by omega
      simp [Except.map, groupBytes, hbytes, hfirst, hsecond, hthird]

lemma mem_encode_toNat_lt (bytes : List UInt8) : ∀ c ∈ encode bytes, c.toNat < 128 := by
  fun_induction encode bytes with
  | case1 => simp
  | case2 a n =>
      have ha := a.toNat_lt
      simp [symbol_toNat_lt (show n / 64 < 64 by omega), symbol_toNat_lt (show n % 64 < 64 by omega)]
  | case3 a b n =>
      have ha := a.toNat_lt
      have hb := b.toNat_lt
      simp [symbol_toNat_lt (show n / 4096 < 64 by omega),
        symbol_toNat_lt (show n / 64 % 64 < 64 by omega),
        symbol_toNat_lt (show n % 64 < 64 by omega)]
  | case4 a b c rest n ih =>
      have ha := a.toNat_lt
      have hb := b.toNat_lt
      have hc := c.toNat_lt
      simpa [symbol_toNat_lt (show n / 262144 < 64 by omega),
        symbol_toNat_lt (show n / 4096 % 64 < 64 by omega),
        symbol_toNat_lt (show n / 64 % 64 < 64 by omega),
        symbol_toNat_lt (show n % 64 < 64 by omega)] using ih

lemma head?_encode_ne (bytes : List UInt8) : (encode bytes).head? ≠ some '=' := by
  fun_cases encode bytes with
  | case1 => simp
  | case2 a n =>
      have ha := a.toNat_lt
      simpa using symbol_ne_pad (show n / 64 < 64 by omega)
  | case3 a b n =>
      have ha := a.toNat_lt
      have hb := b.toNat_lt
      simpa using symbol_ne_pad (show n / 4096 < 64 by omega)
  | case4 a b c rest n =>
      have ha := a.toNat_lt
      have hb := b.toNat_lt
      have hc := c.toNat_lt
      simpa using symbol_ne_pad (show n / 262144 < 64 by omega)

/-- Reading the text of bytes gives the bytes. -/
theorem decode_encode (bytes : List UInt8) : decode (encode bytes) = .ok bytes := by
  rw [decode, if_neg (head?_encode_ne bytes), decodeFrom_encode]

end MusicMacro.Base64
