import EChannel.Signalling.Base64url
import EChannel.Support.Base64

/-!
# `EChannel.Proofs.Signalling.AuthToken`: the token is base64, and the server can read it

The reference is `Base64.encode` with the two alphabets of RFC 4648 (`rfcAlphabet`), which are
given by their ranges and not by the tables of the program. `encodeFrom_eq` relates the loop to
it: the line counter stands at four times the number of groups that are written, so a line
break comes behind every group whose number is a multiple of 19.

`token_reversible` has both parts: what `encoding` writes, and how a key is read back from a
token. The line breaks are no characters of the alphabet, so deleting them is a filter.
-/

set_option autoImplicit false

namespace EChannel.Signalling

namespace Base64url

/-! ### The alphabets -/

/-- The character for a digit, as RFC 4648 lists them. -/
def rfcChar (urlSafe : Bool) (d : Fin 64) : UInt8 :=
  if d.val < 26 then UInt8.ofNat (65 + d.val)
  else if d.val < 52 then UInt8.ofNat (97 + (d.val - 26))
  else if d.val < 62 then UInt8.ofNat (48 + (d.val - 52))
  else if d.val = 62 then (if urlSafe then 45 else 43)
  else (if urlSafe then 95 else 47)

/-- The digit of a character. -/
def rfcValue (urlSafe : Bool) (c : UInt8) : Option (Fin 64) :=
  (List.finRange 64).find? fun d => rfcChar urlSafe d = c

/-- The standard alphabet, and the one that is safe in URLs and file names. -/
def rfcAlphabet (urlSafe : Bool) : Base64.Alphabet UInt8 where
  char := rfcChar urlSafe
  value := rfcValue urlSafe
  pad := 61
  value_char := by cases urlSafe <;> decide +kernel

/-- The tables of the program are the alphabets. -/
theorem mapTable_eq (urlSafe : Bool) (d : Fin 64) :
    (mapTable urlSafe).getD d.val 0 = rfcChar urlSafe d := by
  revert d
  cases urlSafe <;> decide +kernel

/-- The mask takes the last digit. -/
theorem tableChar_eq (urlSafe : Bool) {bits : Nat} {d : Fin 64} (h : bits % 64 = d.val) :
    tableChar urlSafe bits = rfcChar urlSafe d := by
  have hmask : bits &&& 0x3f = bits % 64 := Nat.and_two_pow_sub_one_eq_mod bits 6
  rw [tableChar, hmask, h, mapTable_eq]

/-- The characters are neither line breaks nor padding. -/
theorem rfcChar_ne (urlSafe : Bool) (d : Fin 64) :
    rfcChar urlSafe d ≠ 10 ∧ rfcChar urlSafe d ≠ 13 ∧ rfcChar urlSafe d ≠ 61 := by
  revert d
  cases urlSafe <;> decide +kernel

/-! ### The encoder -/

/-- The bits of two neighbouring bytes, side by side. -/
theorem shiftLeft_or (a b : Nat) {i : Nat} (hb : b < 2 ^ i) : (a <<< i) ||| b = a * 2 ^ i + b := by
  rw [← Nat.shiftLeft_add_eq_or_of_lt hb, Nat.shiftLeft_eq]

/-- The four characters of a group. -/
theorem group_chars (urlSafe : Bool) (a b c : UInt8) :
    tableChar urlSafe (a.toNat >>> 2) = rfcChar urlSafe (Base64.digit (Base64.quantum a b c) 3) ∧
      tableChar urlSafe ((a.toNat <<< 4) ||| (b.toNat >>> 4)) =
        rfcChar urlSafe (Base64.digit (Base64.quantum a b c) 2) ∧
      tableChar urlSafe ((b.toNat <<< 2) ||| (c.toNat >>> 6)) =
        rfcChar urlSafe (Base64.digit (Base64.quantum a b c) 1) ∧
      tableChar urlSafe c.toNat = rfcChar urlSafe (Base64.digit (Base64.quantum a b c) 0) := by
  obtain ⟨hd₃, hd₂, hd₁, hd₀⟩ := Base64.digit_quantum a b c
  have ha := a.toNat_lt
  have hb := b.toNat_lt
  have hc := c.toNat_lt
  have hb4 : b.toNat >>> 4 = b.toNat / 16 := Nat.shiftRight_eq_div_pow _ _
  have hc6 : c.toNat >>> 6 = c.toNat / 64 := Nat.shiftRight_eq_div_pow _ _
  refine ⟨tableChar_eq urlSafe ?_, tableChar_eq urlSafe ?_, tableChar_eq urlSafe ?_,
    tableChar_eq urlSafe ?_⟩
  · rw [Nat.shiftRight_eq_div_pow, hd₃]
    omega
  · rw [hb4, shiftLeft_or a.toNat (b.toNat / 16) (by omega), hd₂]
    omega
  · rw [hc6, shiftLeft_or b.toNat (c.toNat / 64) (by omega), hd₁]
    omega
  · exact hd₀.symm

/-- The groups of a text, as characters. -/
def groupTexts (urlSafe : Bool) (x : QByteArray) : List QByteArray :=
  (Base64.groups x).map fun g => g.map (rfcChar urlSafe)

/-- The characters behind the last complete group. -/
def tailText (urlSafe : Bool) (x : QByteArray) : QByteArray :=
  (Base64.tail x).map (rfcChar urlSafe) ++ Base64.padText (rfcAlphabet urlSafe) (!urlSafe) x

/-- The text without line breaks is the base64 text. -/
theorem flatten_groupTexts (urlSafe : Bool) (x : QByteArray) :
    (groupTexts urlSafe x).flatten ++ tailText urlSafe x =
      Base64.encode (rfcAlphabet urlSafe) (!urlSafe) x := by
  have hflat : (groupTexts urlSafe x).flatten = (Base64.groups x).flatten.map (rfcChar urlSafe) :=
    List.map_flatten.symm
  rw [hflat, tailText, ← List.append_assoc, ← List.map_append]
  rfl

/-- Whole groups need no padding. -/
theorem padText_group (urlSafe : Bool) (a b c : UInt8) (x : QByteArray) :
    Base64.padText (rfcAlphabet urlSafe) (!urlSafe) (a :: b :: c :: x) =
      Base64.padText (rfcAlphabet urlSafe) (!urlSafe) x := by
  have hpad : Base64.padding (a :: b :: c :: x) = Base64.padding x := by
    unfold Base64.padding
    simp only [List.length_cons]
    omega
  rw [Base64.padText, hpad]
  rfl

/-- Whole groups leave the tail. -/
theorem tailText_group (urlSafe : Bool) (a b c : UInt8) (x : QByteArray) :
    tailText urlSafe (a :: b :: c :: x) = tailText urlSafe x := by
  rw [tailText, padText_group]
  rfl

/-- Two bytes, and the padding that makes their characters four. -/
theorem tailText_two (urlSafe : Bool) (a b : UInt8) :
    tailText urlSafe [a, b] =
      [rfcChar urlSafe (Base64.digit (Base64.quantum a b 0) 3),
        rfcChar urlSafe (Base64.digit (Base64.quantum a b 0) 2),
        rfcChar urlSafe (Base64.digit (Base64.quantum a b 0) 1)] ++
        if urlSafe then [] else ascii "=" := by
  cases urlSafe <;> rfl

/-- The tail of a single byte. -/
theorem tailText_one (urlSafe : Bool) (a : UInt8) :
    tailText urlSafe [a] =
      [rfcChar urlSafe (Base64.digit (Base64.quantum a 0 0) 3),
        rfcChar urlSafe (Base64.digit (Base64.quantum a 0 0) 2)] ++
        if urlSafe then [] else ascii "==" := by
  cases urlSafe <;> rfl

/-- A line of 76 characters is 19 groups. -/
theorem lineBreak_eq (k : Nat) : (if (4 * k + 4) % 76 = 0 then ascii "\n\r" else []) =
    if (k + 1) % 19 = 0 then [10, 13] else [] := by
  have hiff : (4 * k + 4) % 76 = 0 ↔ (k + 1) % 19 = 0 := by omega
  simp only [hiff]
  rfl

/-- The loop from the byte behind the group number `k` on. -/
theorem encodeFrom_eq (urlSafe : Bool) : ∀ (x : QByteArray) (k : Nat),
    encodeFrom urlSafe (4 * k) x =
      (((groupTexts urlSafe x).zipIdx k).flatMap fun g =>
        g.1 ++ if (g.2 + 1) % 19 = 0 then [10, 13] else []) ++ tailText urlSafe x
  | a :: b :: c :: x, k => by
    obtain ⟨h₀, h₁, h₂, h₃⟩ := group_chars urlSafe a b c
    have ih := encodeFrom_eq urlSafe x (k + 1)
    rw [encodeFrom, h₀, h₁, h₂, h₃, lineBreak_eq, tailText_group]
    rw [Nat.mul_add] at ih
    rw [ih]
    simp only [groupTexts, Base64.groups, List.map_cons, List.map_nil, List.zipIdx_cons,
      List.flatMap_cons, List.append_assoc]
  | [a, b], k => by
    obtain ⟨h₀, h₁, h₂, -⟩ := group_chars urlSafe a b 0
    -- The third byte is filled up with zero bits.
    have hzero : (0 : UInt8).toNat >>> 6 = 0 >>> 6 := rfl
    rw [hzero] at h₂
    rw [encodeFrom, h₀, h₁, h₂, tailText_two]
    rfl
  | [a], k => by
    obtain ⟨h₀, h₁, -, -⟩ := group_chars urlSafe a 0 0
    have hzero : a.toNat <<< 4 ||| (0 : UInt8).toNat >>> 4 = a.toNat <<< 4 := Nat.or_zero _
    rw [hzero] at h₁
    rw [encodeFrom, h₀, h₁, tailText_one]
    rfl
  | [], k => by cases urlSafe <;> rfl

/-- `encoding` writes the groups with a line break behind every 19th, and the rest. -/
theorem encoding_eq (x : QByteArray) (urlSafe : Bool) :
    encoding x urlSafe =
      Base64.breakAfter 19 [10, 13] (groupTexts urlSafe x) ++ tailText urlSafe x :=
  encodeFrom_eq urlSafe x 0

/-- The line breaks are deleted. -/
def deleteBreaks (s : QByteArray) : QByteArray := s.filter fun c => decide (c ≠ 10 ∧ c ≠ 13)

/-- Without its line breaks the text is that of the standard. -/
theorem deleteBreaks_encoding (x : QByteArray) (urlSafe : Bool) :
    deleteBreaks (encoding x urlSafe) = Base64.encode (rfcAlphabet urlSafe) (!urlSafe) x := by
  have hchar : ∀ d, decide (rfcChar urlSafe d ≠ 10 ∧ rfcChar urlSafe d ≠ 13) = true := fun d =>
    decide_eq_true ⟨(rfcChar_ne urlSafe d).1, (rfcChar_ne urlSafe d).2.1⟩
  have hbreak : ∀ c ∈ ([10, 13] : QByteArray), decide (c ≠ 10 ∧ c ≠ 13) = false := by simp
  have hgroups : (Base64.breakAfter 19 [10, 13] (groupTexts urlSafe x)).filter
      (fun c => decide (c ≠ 10 ∧ c ≠ 13)) = (groupTexts urlSafe x).flatten := by
    refine Base64.filter_breakAfter hbreak fun g hg c hc => ?_
    obtain ⟨ds, -, rfl⟩ := List.mem_map.mp hg
    obtain ⟨d, -, rfl⟩ := List.mem_map.mp hc
    exact hchar d
  have htail : (tailText urlSafe x).filter (fun c => decide (c ≠ 10 ∧ c ≠ 13)) =
      tailText urlSafe x := by
    refine List.filter_eq_self.mpr fun c hc => ?_
    rcases List.mem_append.mp hc with hc | hc
    · obtain ⟨d, -, rfl⟩ := List.mem_map.mp hc
      exact hchar d
    · unfold Base64.padText at hc
      split at hc
      · rw [List.eq_of_mem_replicate hc]
        rfl
      · cases hc
  rw [deleteBreaks, encoding_eq, List.filter_append, hgroups, htail, flatten_groupTexts]

end Base64url

/-! ### The token -/

/-- The password is applied twice. -/
theorem xorPassword_xorPassword (k : QByteArray) : xorPassword (xorPassword k) = k := by
  refine List.ext_getElem (by simp [xorPassword]) fun i h₁ h₂ => ?_
  simp only [xorPassword, List.getElem_map, List.getElem_zipIdx, Nat.zero_add]
  rw [UInt8.xor_assoc, UInt8.xor_self, UInt8.xor_zero]

open Base64url

/-- The text is base64 as RFC 4648 defines it, with `"\n\r"` behind every 19th complete group
and nowhere else. A key is read back from its token: the line breaks are deleted, the rest is
base64url without padding, and the password is taken off. So no two keys have the same
token. -/
theorem token_reversible :
    (∀ (x : QByteArray) (urlSafe : Bool),
      encoding x urlSafe =
          Base64.breakAfter 19 [10, 13] (groupTexts urlSafe x) ++ tailText urlSafe x ∧
        (groupTexts urlSafe x).flatten ++ tailText urlSafe x =
          Base64.encode (rfcAlphabet urlSafe) (!urlSafe) x) ∧
      (∀ k : QByteArray, (Base64.decode (rfcAlphabet true)
        (deleteBreaks (CommandClient.encode k))).map xorPassword = some k) ∧
      ∀ k k' : QByteArray, k ≠ k' → CommandClient.encode k ≠ CommandClient.encode k' := by
  have hread : ∀ k : QByteArray, (Base64.decode (rfcAlphabet true)
      (deleteBreaks (CommandClient.encode k))).map xorPassword = some k := by
    intro k
    have htext := deleteBreaks_encoding (xorPassword k) true
    rw [CommandClient.encode, htext, Bool.not_true, Base64.decode_encode, Option.map_some,
      xorPassword_xorPassword]
  refine ⟨fun x urlSafe => ⟨encoding_eq x urlSafe, flatten_groupTexts urlSafe x⟩, hread, ?_⟩
  intro k k' hne heq
  have hk := hread k
  rw [heq, hread k'] at hk
  exact hne (Option.some.inj hk).symm

end EChannel.Signalling
