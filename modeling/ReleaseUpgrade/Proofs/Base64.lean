import ReleaseUpgrade.Base64

/-!
# Base64 is read back

* `Base64.digit?_digit`        each digit stands for its six bits;
* `Base64.decode?_encodeBytes`  bytes are read back from their text;
* `Base64.mem_encodeBytes`     the text has digits and padding only.
-/

namespace ReleaseUpgrade.Base64

theorem digit?_digit {n : Nat} (h : n < 64) : digit? (digit n) = some n := by
  have hall : ∀ n ∈ List.range 64, digit? (digit n) = some n := by decide
  exact hall n (List.mem_range.mpr h)

/-- padding is no digit -/
theorem digit_ne_pad {n : Nat} (h : n < 64) : digit n ≠ pad := by
  intro hpad
  have hdigit := digit?_digit h
  rw [hpad] at hdigit
  cases hdigit

section
variable {w x y z : Nat} (hw : w < 64) (hx : x < 64) (hy : y < 64)
include hw hx hy

/-- four digits in front of a text -/
theorem decode?_digits (hz : z < 64) {rest bytes : List UInt8} (h : decode? rest = some bytes) :
    decode? (digit w :: digit x :: digit y :: digit z :: rest) =
      some (UInt8.ofNat ((((w * 64 + x) * 64 + y) * 64 + z) / 65536) ::
        UInt8.ofNat ((((w * 64 + x) * 64 + y) * 64 + z) / 256 % 256) ::
        UInt8.ofNat ((((w * 64 + x) * 64 + y) * 64 + z) % 256) :: bytes) := by
  have hfull : decode?.full? (digit w) (digit x) (digit y) (digit z) bytes =
      some (UInt8.ofNat ((((w * 64 + x) * 64 + y) * 64 + z) / 65536) ::
        UInt8.ofNat ((((w * 64 + x) * 64 + y) * 64 + z) / 256 % 256) ::
        UInt8.ofNat ((((w * 64 + x) * 64 + y) * 64 + z) % 256) :: bytes) := by
    rw [decode?.full?, digit?_digit hw, digit?_digit hx, digit?_digit hy, digit?_digit hz]
    rfl
  rw [← hfull]
  cases rest with
  | nil =>
    cases h
    rw [decode?, if_neg (digit_ne_pad hz)]
  | cons b rest =>
    rw [decode?, h]
    exact fun heq => nomatch heq

end

/-- by induction along the groups of three bytes, of which the last one may be short -/
theorem decode?_encodeBytes (bytes : List UInt8) : decode? (encodeBytes bytes) = some bytes := by
  induction bytes using encodeBytes.induct with
  | case1 => rfl
  | case2 a =>
    have ha : a.toNat < 256 := a.toNat_lt
    rw [encodeBytes, decode?, if_pos rfl, if_pos rfl, digit?_digit (by omega),
      digit?_digit (by omega)]
    have hn : a.toNat * 16 / 64 * 64 + a.toNat * 16 % 64 = a.toNat * 16 := by omega
    show (if _ % 16 = 0 then some [UInt8.ofNat (_ / 16)] else none) = some [a]
    rw [hn, if_pos (by omega), Nat.mul_div_cancel _ (by decide), UInt8.ofNat_toNat]
  | case3 a b =>
    have ha : a.toNat < 256 := a.toNat_lt
    have hb : b.toNat < 256 := b.toNat_lt
    rw [encodeBytes]
    generalize hn : (a.toNat * 256 + b.toNat) * 4 = n
    have hsame : (n / 4096 * 64 + n / 64 % 64) * 64 + n % 64 = n := by omega
    have hfirst : n / 1024 = a.toNat := by omega
    have hsecond : n / 4 % 256 = b.toNat := by omega
    show decode? [digit (n / 4096), digit (n / 64 % 64), digit (n % 64), pad] = some [a, b]
    rw [decode?, if_pos rfl, if_neg (digit_ne_pad (by omega)), digit?_digit (by omega),
      digit?_digit (by omega), digit?_digit (by omega)]
    show (if ((n / 4096 * 64 + n / 64 % 64) * 64 + n % 64) % 4 = 0 then
      some [UInt8.ofNat (_ / 1024), UInt8.ofNat (_ / 4 % 256)] else none) = some [a, b]
    rw [hsame, if_pos (by omega), hfirst, hsecond, UInt8.ofNat_toNat, UInt8.ofNat_toNat]
  | case4 a b c rest ih =>
    have ha : a.toNat < 256 := a.toNat_lt
    have hb : b.toNat < 256 := b.toNat_lt
    have hc : c.toNat < 256 := c.toNat_lt
    rw [encodeBytes]
    generalize hn : (a.toNat * 256 + b.toNat) * 256 + c.toNat = n
    have hsame : ((n / 262144 * 64 + n / 4096 % 64) * 64 + n / 64 % 64) * 64 + n % 64 = n := by
      omega
    have hfirst : n / 65536 = a.toNat := by omega
    have hsecond : n / 256 % 256 = b.toNat := by omega
    have hthird : n % 256 = c.toNat := by omega
    show decode? (digit (n / 262144) :: digit (n / 4096 % 64) :: digit (n / 64 % 64) ::
      digit (n % 64) :: encodeBytes rest) = some (a :: b :: c :: rest)
    rw [decode?_digits (by omega) (by omega) (by omega) (by omega) ih, hsame, hfirst, hsecond,
      hthird, UInt8.ofNat_toNat, UInt8.ofNat_toNat, UInt8.ofNat_toNat]

theorem mem_encodeBytes {bytes : List UInt8} {b : UInt8} (h : b ∈ encodeBytes bytes) :
    b = pad ∨ ∃ n, b = digit n := by
  induction bytes using encodeBytes.induct with
  | case1 => cases h
  | case2 a =>
    simp only [encodeBytes, List.mem_cons, List.not_mem_nil, or_false] at h
    obtain rfl | rfl | rfl | rfl := h
    · exact .inr ⟨_, rfl⟩
    · exact .inr ⟨_, rfl⟩
    · exact .inl rfl
    · exact .inl rfl
  | case3 a c =>
    simp only [encodeBytes, List.mem_cons, List.not_mem_nil, or_false] at h
    obtain rfl | rfl | rfl | rfl := h
    · exact .inr ⟨_, rfl⟩
    · exact .inr ⟨_, rfl⟩
    · exact .inr ⟨_, rfl⟩
    · exact .inl rfl
  | case4 a c d rest ih =>
    simp only [encodeBytes, List.mem_cons] at h
    obtain rfl | rfl | rfl | rfl | h := h
    · exact .inr ⟨_, rfl⟩
    · exact .inr ⟨_, rfl⟩
    · exact .inr ⟨_, rfl⟩
    · exact .inr ⟨_, rfl⟩
    · exact ih h

end ReleaseUpgrade.Base64
