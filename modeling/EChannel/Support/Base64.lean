import Mathlib.Algebra.Ring.Nat
import Mathlib.Data.List.Basic
import Mathlib.Tactic.Common

/-!
# `EChannel.Support.Base64`: base64 text as RFC 4648 defines it

Three bytes are a number of 24 bits, and its four digits to the base 64 are looked up in the
alphabet. One or two bytes at the end are filled up with zero bits, and only the digits that
have bits of them are kept. With padding, the text is then filled up to four characters.

`groups` has the digits of the complete groups and `tail` those of the rest, so that a text
with line breaks can be stated as well (`breakAfter`). `decode` reads a text without padding,
and `decode_encode` is the round trip.
-/

set_option autoImplicit false

namespace EChannel

namespace Base64

/-- A base64 alphabet: a character for each digit, and a padding character that is none of
them. -/
structure Alphabet (κ : Type) where
  char : Fin 64 → κ
  value : κ → Option (Fin 64)
  pad : κ
  value_char : ∀ d, value (char d) = some d

variable {κ : Type}

/-- The number of 24 bits that three bytes are. -/
def quantum (a b c : UInt8) : Nat := a.toNat * 65536 + b.toNat * 256 + c.toNat

/-- The digit of a number at a place, from the right. -/
def digit (v place : Nat) : Fin 64 := ⟨v / 64 ^ place % 64, Nat.mod_lt _ (by decide)⟩

/-- The digits of the complete groups. -/
def groups : List UInt8 → List (List (Fin 64))
  | a :: b :: c :: x =>
    [digit (quantum a b c) 3, digit (quantum a b c) 2, digit (quantum a b c) 1,
      digit (quantum a b c) 0] :: groups x
  | _ => []

/-- The digits of the bytes behind the last complete group. -/
def tail : List UInt8 → List (Fin 64)
  | _ :: _ :: _ :: x => tail x
  | [a, b] => [digit (quantum a b 0) 3, digit (quantum a b 0) 2, digit (quantum a b 0) 1]
  | [a] => [digit (quantum a 0 0) 3, digit (quantum a 0 0) 2]
  | [] => []

/-- The digits of a text. -/
def digits (x : List UInt8) : List (Fin 64) := (groups x).flatten ++ tail x

/-- How many padding characters there are. -/
def padding (x : List UInt8) : Nat := (3 - x.length % 3) % 3

/-- The padding of a text, if it has any. -/
def padText (A : Alphabet κ) (padded : Bool) (x : List UInt8) : List κ :=
  if padded then List.replicate (padding x) A.pad else []

/-- The base64 text. -/
def encode (A : Alphabet κ) (padded : Bool) (x : List UInt8) : List κ :=
  (digits x).map A.char ++ padText A padded x

/-- The groups one after another, with `sep` behind every `n`-th. -/
def breakAfter (n : Nat) (sep : List κ) (gs : List (List κ)) : List κ :=
  gs.zipIdx.flatMap fun g => g.1 ++ if (g.2 + 1) % n = 0 then sep else []

/-- The bytes of a list of digits. A single digit at the end is not enough for a byte. -/
def bytes : List (Fin 64) → Option (List UInt8)
  | d :: e :: f :: g :: ds =>
    (bytes ds).map fun x =>
      UInt8.ofNat (d.val * 4 + e.val / 16) :: UInt8.ofNat (e.val % 16 * 16 + f.val / 4) ::
        UInt8.ofNat (f.val % 4 * 64 + g.val) :: x
  | [d, e, f] =>
    some [UInt8.ofNat (d.val * 4 + e.val / 16), UInt8.ofNat (e.val % 16 * 16 + f.val / 4)]
  | [d, e] => some [UInt8.ofNat (d.val * 4 + e.val / 16)]
  | [_] => none
  | [] => some []

/-- The values of the characters, if all are in the alphabet. -/
def values (A : Alphabet κ) : List κ → Option (List (Fin 64))
  | [] => some []
  | c :: s => (A.value c).bind fun d => (values A s).map fun ds => d :: ds

/-- The bytes of a text without padding. -/
def decode (A : Alphabet κ) (s : List κ) : Option (List UInt8) := (values A s).bind bytes

/-! ### The round trip -/

/-- A digit is the remainder at its place. -/
theorem digit_val (v place : Nat) : (digit v place).val = v / 64 ^ place % 64 := rfl

/-- The digits of a group, in the bits of its bytes. -/
theorem digit_quantum (a b c : UInt8) :
    (digit (quantum a b c) 3).val = a.toNat / 4 ∧
      (digit (quantum a b c) 2).val = a.toNat % 4 * 16 + b.toNat / 16 ∧
      (digit (quantum a b c) 1).val = b.toNat % 16 * 4 + c.toNat / 64 ∧
      (digit (quantum a b c) 0).val = c.toNat % 64 := by
  have ha := a.toNat_lt
  have hb := b.toNat_lt
  have hc := c.toNat_lt
  simp only [digit_val, quantum]
  refine ⟨?_, ?_, ?_, ?_⟩
  · omega
  · omega
  · omega
  · omega

/-- The four digits of a group give its bytes back. -/
theorem bytes_group (a b c : UInt8) {ds : List (Fin 64)} {x : List UInt8}
    (h : bytes ds = some x) :
    bytes (digit (quantum a b c) 3 :: digit (quantum a b c) 2 :: digit (quantum a b c) 1 ::
      digit (quantum a b c) 0 :: ds) = some (a :: b :: c :: x) := by
  obtain ⟨hd₃, hd₂, hd₁, hd₀⟩ := digit_quantum a b c
  have hb := b.toNat_lt
  have hc := c.toNat_lt
  have h₁ : a.toNat / 4 * 4 + (a.toNat % 4 * 16 + b.toNat / 16) / 16 = a.toNat := by omega
  have h₂ : (a.toNat % 4 * 16 + b.toNat / 16) % 16 * 16 + (b.toNat % 16 * 4 + c.toNat / 64) / 4 =
      b.toNat := by omega
  have h₃ : (b.toNat % 16 * 4 + c.toNat / 64) % 4 * 64 + c.toNat % 64 = c.toNat := by omega
  simp only [bytes, hd₃, hd₂, hd₁, hd₀, h, Option.map_some, h₁, h₂, h₃, UInt8.ofNat_toNat]

/-- Two bytes are read back from three digits. -/
theorem bytes_two (a b : UInt8) :
    bytes [digit (quantum a b 0) 3, digit (quantum a b 0) 2, digit (quantum a b 0) 1] =
      some [a, b] := by
  have h := bytes_group a b 0 (show bytes [] = some [] from rfl)
  simp only [bytes, Option.map_some, Option.some.injEq, List.cons.injEq] at h ⊢
  exact ⟨h.1, h.2.1, trivial⟩

/-- A byte is read back from two digits. -/
theorem bytes_one (a : UInt8) :
    bytes [digit (quantum a 0 0) 3, digit (quantum a 0 0) 2] = some [a] := by
  have h := bytes_group a 0 0 (show bytes [] = some [] from rfl)
  simp only [bytes, Option.map_some, Option.some.injEq, List.cons.injEq] at h ⊢
  exact ⟨h.1, trivial⟩

/-- Bytes are read back from their digits. The recursion is that of `digits`. -/
theorem bytes_digits : ∀ x : List UInt8, bytes (digits x) = some x
  | a :: b :: c :: x => bytes_group a b c (bytes_digits x)
  | [a, b] => bytes_two a b
  | [a] => bytes_one a
  | [] => rfl

/-- Digits are read back from their characters. -/
theorem values_map_char (A : Alphabet κ) (ds : List (Fin 64)) :
    values A (ds.map A.char) = some ds := by
  induction ds with
  | nil => rfl
  | cons d ds ih => simp [values, A.value_char, ih]

/-- What `encode` writes without padding, `decode` reads. -/
theorem decode_encode (A : Alphabet κ) (x : List UInt8) :
    decode A (encode A false x) = some x := by
  have htext : encode A false x = (digits x).map A.char := List.append_nil _
  rw [decode, htext, values_map_char, Option.bind_some, bytes_digits]

/-! ### Line breaks -/

/-- Without its separators, a broken text is the groups one after another. -/
theorem filter_breakAfter {n : Nat} {sep : List κ} {gs : List (List κ)} {p : κ → Bool}
    (hsep : ∀ c ∈ sep, p c = false) (hgs : ∀ g ∈ gs, ∀ c ∈ g, p c = true) :
    (breakAfter n sep gs).filter p = gs.flatten := by
  have hgo : ∀ k, ((gs.zipIdx k).flatMap fun g =>
      g.1 ++ if (g.2 + 1) % n = 0 then sep else []).filter p = gs.flatten := by
    induction gs with
    | nil =>
      intro k
      rfl
    | cons g gs ih =>
      intro k
      have hg : g.filter p = g := List.filter_eq_self.mpr (hgs g List.mem_cons_self)
      have hs : (if (k + 1) % n = 0 then sep else []).filter p = [] := by
        split
        · exact List.filter_eq_nil_iff.mpr fun c hc => by simp [hsep c hc]
        · rfl
      have htail := ih (fun g' hg' => hgs g' (List.mem_cons_of_mem _ hg')) (k + 1)
      simp only [List.zipIdx_cons, List.flatMap_cons, List.filter_append, hg, hs, htail,
        List.append_nil, List.flatten_cons]
  exact hgo 0

end Base64

end EChannel
