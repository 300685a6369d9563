import EChannel.Support.CText
import EChannel.Support.Qt

/-!
# `EChannel.Support.CBytes`: strings in arrays of a fixed width

`QString::toStdString` gives the bytes of a text in UTF-8. A function of C sees them up to the
first NUL (`cStr`). `strncpy` fills an array: behind a shorter string it writes NULs, of a longer
one it writes a part, without a NUL.

`cStr_strncpy` and `cStr_strncpy_of_le` are what is read back from the array. In the second case
the reader does not stop at the end of the array.
-/

set_option autoImplicit false

namespace EChannel

namespace CBytes

/-- `QString::toStdString`. -/
def toStdString (s : QString) : QByteArray := s.flatMap String.utf8EncodeChar

/-- `QString::length`, which counts UTF-16 code units. -/
def utf16Length : QString → Nat
  | [] => 0
  | c :: s => (if c.toNat ≤ 65535 then 1 else 2) + utf16Length s

/-- The C string at the start of a buffer. -/
def cStr (buf : QByteArray) : QByteArray := buf.takeWhile fun b => decide (b ≠ 0)

/-- `strncpy` into an array of `n` bytes. -/
def strncpy (n : Nat) (src : QByteArray) : Vector UInt8 n :=
  ⟨((cStr src ++ List.replicate n 0).take n).toArray, by simp⟩

/-! ### C strings -/

section
variable {n : Nat} {buf src u : QByteArray}

/-- A C string has no zero byte. -/
theorem zero_notMem_cStr (buf : QByteArray) : 0 ∉ cStr buf := by
  intro h
  simpa using List.mem_takeWhile_imp h

/-- Bytes without NUL are part of the string. -/
theorem cStr_append (h : 0 ∉ u) (buf : QByteArray) : cStr (u ++ buf) = u ++ cStr buf := by
  refine List.takeWhile_append_of_pos fun b hb => decide_eq_true ?_
  rintro rfl
  exact h hb

/-- Bytes without a zero are the C string of themselves. -/
theorem cStr_eq_self (h : 0 ∉ u) : cStr u = u := by
  have happend := cStr_append h []
  rwa [List.append_nil, show cStr [] = [] from rfl, List.append_nil] at happend

/-- A C string is not longer than its buffer. -/
theorem length_cStr_le (buf : QByteArray) : (cStr buf).length ≤ buf.length :=
  (List.takeWhile_prefix _).length_le

/-- What `strncpy` writes: the string, filled up with zeros and cut off at `n` bytes. -/
theorem toList_strncpy (n : Nat) (src : QByteArray) :
    (strncpy n src).toList = (cStr src ++ List.replicate n 0).take n := rfl

/-- A string that is shorter than the array is read back, whatever is behind the array. -/
theorem cStr_strncpy (h : (cStr src).length < n) (rest : QByteArray) :
    cStr ((strncpy n src).toList ++ rest) = cStr src := by
  obtain ⟨k, rfl⟩ : ∃ k, n = (cStr src).length + (k + 1) := ⟨n - (cStr src).length - 1, by omega⟩
  have hpad : (cStr src ++ List.replicate ((cStr src).length + (k + 1)) 0).take
      ((cStr src).length + (k + 1)) = cStr src ++ 0 :: List.replicate k 0 := by
    rw [List.take_length_add_append, List.take_replicate, ← List.replicate_succ]
    congr 2
    omega
  rw [toList_strncpy, hpad, List.append_assoc, cStr_append (zero_notMem_cStr src)]
  exact List.append_nil _

/-- Of a longer one, the array has the first bytes, and the string goes on behind it. -/
theorem cStr_strncpy_of_le (h : n ≤ (cStr src).length) (rest : QByteArray) :
    cStr ((strncpy n src).toList ++ rest) = (cStr src).take n ++ cStr rest := by
  have hzero : 0 ∉ (cStr src).take n := fun hmem =>
    zero_notMem_cStr src (List.mem_of_mem_take hmem)
  rw [toList_strncpy, List.take_append_of_le_length h, cStr_append hzero]

end

/-! ### UTF-8 -/

/-- Different texts have different bytes. -/
theorem toStdString_injective {s t : QString} (h : toStdString s = toStdString t) : s = t := by
  have hbytes : s.utf8Encode = t.utf8Encode := congrArg List.toByteArray h
  apply String.ofList_injective
  apply String.toByteArray_inj.mp
  rw [String.toByteArray_ofList, String.toByteArray_ofList, hbytes]

/-- Only the character NUL has a NUL in its bytes. -/
theorem zero_mem_utf8EncodeChar {c : Char} : 0 ∈ String.utf8EncodeChar c ↔ c = nul := by
  constructor
  · intro h
    -- The bytes of the longer forms have their highest bit set.
    have hne : ∀ v : Nat, v % 256 ≠ 0 → (0 : UInt8) ≠ UInt8.ofNat v := by
      intro v hv heq
      have hmod := congrArg UInt8.toNat heq
      rw [UInt8.toNat_ofNat'] at hmod
      exact hv hmod.symm
    have hsmall : c.toNat = 0 := by
      by_contra hpos
      have hpos' : c.val.toNat ≠ 0 := hpos
      unfold String.utf8EncodeChar at h
      dsimp only at h
      split at h
      · simp only [List.mem_singleton] at h
        exact hne _ (by omega) h
      · split at h
        · simp only [List.mem_cons, List.not_mem_nil, or_false] at h
          rcases h with h | h <;> exact hne _ (by omega) h
        · split at h
          · simp only [List.mem_cons, List.not_mem_nil, or_false] at h
            rcases h with h | h | h <;> exact hne _ (by omega) h
          · simp only [List.mem_cons, List.not_mem_nil, or_false] at h
            rcases h with h | h | h | h <;> exact hne _ (by omega) h
    rw [← Char.ofNat_toNat c, hsmall]
    rfl
  · rintro rfl
    decide

/-- A zero byte comes from a null character. -/
theorem zero_mem_toStdString {s : QString} : 0 ∈ toStdString s ↔ nul ∈ s := by
  constructor
  · intro h
    obtain ⟨c, hc, hzero⟩ := List.mem_flatMap.mp h
    exact zero_mem_utf8EncodeChar.mp hzero ▸ hc
  · intro h
    exact List.mem_flatMap.mpr ⟨nul, h, zero_mem_utf8EncodeChar.mpr rfl⟩

/-- A code unit of UTF-16 is three bytes in UTF-8 at most. -/
theorem length_toStdString_le (s : QString) : (toStdString s).length ≤ 3 * utf16Length s := by
  induction s with
  | nil => exact Nat.le_refl _
  | cons c s ih =>
    have hchar : (String.utf8EncodeChar c).length ≤ 3 * if c.toNat ≤ 65535 then 1 else 2 := by
      show (String.utf8EncodeChar c).length ≤ 3 * if c.val.toNat ≤ 65535 then 1 else 2
      unfold String.utf8EncodeChar
      dsimp only
      split
      · split <;> simp
      · split
        · split <;> simp
        · split <;> simp
    have hcons : toStdString (c :: s) = String.utf8EncodeChar c ++ toStdString s :=
      List.flatMap_cons
    have hlen : utf16Length (c :: s) = (if c.toNat ≤ 65535 then 1 else 2) + utf16Length s := rfl
    rw [hcons, hlen, List.length_append, Nat.mul_add]
    omega

end CBytes

end EChannel
