import Mathlib.Data.List.Basic

namespace CuckooEcho.Lib.Base64

/-! ## Base64 without padding -/

/-- The six-bit groups of the bytes; the last one is filled up with zeros. -/
def sextets : List UInt8 → List Nat
  | [] => []
  | [a] => [a.toNat / 4, a.toNat % 4 * 16]
  | [a, b] => [a.toNat / 4, a.toNat % 4 * 16 + b.toNat / 16, b.toNat % 16 * 4]
  | a :: b :: c :: rest =>
      a.toNat / 4 :: (a.toNat % 4 * 16 + b.toNat / 16) :: (b.toNat % 16 * 4 + c.toNat / 64) :: c.toNat % 64 ::
        sextets rest

/-- The bytes of six-bit groups; bits that are left over are dropped. -/
def octets : List Nat → Option (List UInt8)
  | [] => some []
  | [_] => none
  | [a, b] => some [.ofNat (a * 4 + b / 16)]
  | [a, b, c] => some [.ofNat (a * 4 + b / 16), .ofNat (b % 16 * 16 + c / 4)]
  | a :: b :: c :: d :: rest => (octets rest).map fun bytes =>
      .ofNat (a * 4 + b / 16) :: .ofNat (b % 16 * 16 + c / 4) :: .ofNat (c % 4 * 64 + d) :: bytes

theorem toNat_lt (a : UInt8) : a.toNat < 256 := a.toNat_lt

theorem ofNat_eq {a : UInt8} {n : Nat} (same : n = a.toNat) : UInt8.ofNat n = a := by
  rw [same, UInt8.ofNat_toNat]

theorem octets_sextets (bytes : List UInt8) : octets (sextets bytes) = some bytes := by
  fun_induction sextets bytes with
  | case1 => rfl
  | case2 a =>
      have first : UInt8.ofNat (a.toNat / 4 * 4 + a.toNat % 4 * 16 / 16) = a := ofNat_eq (by omega)
      rw [octets, first]
  | case3 a b =>
      have below := toNat_lt b
      have first : UInt8.ofNat (a.toNat / 4 * 4 + (a.toNat % 4 * 16 + b.toNat / 16) / 16) = a := ofNat_eq (by omega)
      have second : UInt8.ofNat ((a.toNat % 4 * 16 + b.toNat / 16) % 16 * 16 + b.toNat % 16 * 4 / 4) = b :=
        ofNat_eq (by omega)
      rw [octets, first, second]
  | case4 a b c rest ih =>
      have belowB := toNat_lt b
      have belowC := toNat_lt c
      have first : UInt8.ofNat (a.toNat / 4 * 4 + (a.toNat % 4 * 16 + b.toNat / 16) / 16) = a := ofNat_eq (by omega)
      have second : UInt8.ofNat ((a.toNat % 4 * 16 + b.toNat / 16) % 16 * 16 + (b.toNat % 16 * 4 + c.toNat / 64) / 4) =
          b := ofNat_eq (by omega)
      have third : UInt8.ofNat ((b.toNat % 16 * 4 + c.toNat / 64) % 4 * 64 + c.toNat % 64) = c := ofNat_eq (by omega)
      rw [octets, first, second, third, ih]
      rfl

theorem sextets_lt (bytes : List UInt8) : ∀ n ∈ sextets bytes, n < 64 := by
  fun_induction sextets bytes with
  | case1 => exact List.forall_mem_nil _
  | case2 a =>
      have := toNat_lt a
      simp only [List.forall_mem_cons, List.not_mem_nil, false_implies, implies_true, and_true]
      omega
  | case3 a b =>
      have := toNat_lt a
      have := toNat_lt b
      simp only [List.forall_mem_cons, List.not_mem_nil, false_implies, implies_true, and_true]
      omega
  | case4 a b c rest ih =>
      have := toNat_lt a
      have := toNat_lt b
      have := toNat_lt c
      simp only [List.forall_mem_cons]
      exact ⟨by omega, by omega, by omega, by omega, ih⟩

/-! ### The two alphabets -/

def urlAlphabet : List Char := "ABCDEFGHIJKLMNOPQRSTUVWXYZabcdefghijklmnopqrstuvwxyz0123456789-_".toList

def urlChar (n : Nat) : Char := urlAlphabet.getD n 'A'

/-- `base64.urlsafe_b64encode`, stripped of its padding. -/
def urlsafeEncode (bytes : List UInt8) : List Char := (sextets bytes).map urlChar

def sextet (c : Char) : Option Nat :=
  if 'A' ≤ c ∧ c ≤ 'Z' then some (c.toNat - 'A'.toNat)
  else if 'a' ≤ c ∧ c ≤ 'z' then some (c.toNat - 'a'.toNat + 26)
  else if '0' ≤ c ∧ c ≤ '9' then some (c.toNat - '0'.toNat + 52)
  else if c = '+' then some 62
  else if c = '/' then some 63
  else none

def byteChar (byte : UInt8) : Char := Char.ofNat byte.toNat

def isAsciiSpace (c : Char) : Bool := c.toNat ∈ [0x09, 0x0A, 0x0C, 0x0D, 0x20]

/-- One or two signs of padding at the end of a text whose length they make a multiple of four. -/
def stripPadding (text : List Char) : List Char :=
  if text.length % 4 ≠ 0 then text
  else if ['=', '='] <:+ text then text.dropLast.dropLast
  else if ['='] <:+ text then text.dropLast
  else text

/-- `atob`: each byte becomes a character; `none` where it throws. -/
def atob (text : List Char) : Option (List Char) :=
  let data := stripPadding (text.filter (!isAsciiSpace ·))
  ((data.mapM sextet).bind octets).map fun bytes => bytes.map byteChar

def toStandard (c : Char) : Char := if c = '-' then '+' else if c = '_' then '/' else c

theorem sextet_toStandard : ∀ n < 64, sextet (toStandard (urlChar n)) = some n := by decide +kernel

theorem toStandard_plain : ∀ n < 64,
    isAsciiSpace (toStandard (urlChar n)) = false ∧ toStandard (urlChar n) ≠ '=' := by decide +kernel

theorem urlChar_ne_dot : ∀ n < 64, urlChar n ≠ '.' := by decide +kernel

theorem dot_not_mem_urlsafeEncode (bytes : List UInt8) : '.' ∉ urlsafeEncode bytes := by
  intro member
  obtain ⟨n, here, dot⟩ := List.mem_map.mp member
  exact urlChar_ne_dot n (sextets_lt bytes n here) dot

theorem stripPadding_of_not_mem {text : List Char} (none : '=' ∉ text) : stripPadding text = text := by
  have twice : ¬ ['=', '='] <:+ text := fun ends => none (ends.subset (by simp))
  have once : ¬ ['='] <:+ text := fun ends => none (ends.subset (by simp))
  rw [stripPadding, if_neg twice, if_neg once, ite_self]

theorem mapM_sextet {ns : List Nat} (bound : ∀ n ∈ ns, n < 64) :
    (ns.map fun n => toStandard (urlChar n)).mapM sextet = some ns := by
  induction ns with
  | nil => rfl
  | cons n ns ih =>
      obtain ⟨here, later⟩ := List.forall_mem_cons.mp bound
      rw [List.map_cons, List.mapM_cons, sextet_toStandard n here, ih later]
      rfl

/-- What has been encoded for a url is read back once its characters have been replaced, whatever its length. -/
theorem atob_urlsafeEncode (bytes : List UInt8) :
    atob ((urlsafeEncode bytes).map toStandard) = some (bytes.map byteChar) := by
  have bound := sextets_lt bytes
  have shape : (urlsafeEncode bytes).map toStandard = (sextets bytes).map fun n => toStandard (urlChar n) := by
    rw [urlsafeEncode, List.map_map]
    rfl
  have noSpace : (((sextets bytes).map fun n => toStandard (urlChar n)).filter (!isAsciiSpace ·)) =
      (sextets bytes).map fun n => toStandard (urlChar n) := by
    refine List.filter_eq_self.mpr fun c member => ?_
    obtain ⟨n, here, rfl⟩ := List.mem_map.mp member
    simp [(toStandard_plain n (bound n here)).1]
  have noPadding : '=' ∉ (sextets bytes).map fun n => toStandard (urlChar n) := by
    intro member
    obtain ⟨n, here, same⟩ := List.mem_map.mp member
    exact (toStandard_plain n (bound n here)).2 same
  rw [shape, atob, noSpace, stripPadding_of_not_mem noPadding, mapM_sextet bound, Option.bind_some, octets_sextets]
  rfl

end CuckooEcho.Lib.Base64
