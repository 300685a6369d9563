import EChannel.Support.CText

/-!
# `EChannel.Support.Inet`: IPv4 addresses as text and in network byte order

An address in network byte order has its four bytes in memory in the order in which they are
written. The host is little-endian, so the first one is the lowest byte of the number.

`inet_addr` takes one to four parts, in decimal, octal or hexadecimal notation; the last part
stands for all bytes that are left. `inet_ntoa` prints four parts in decimal. The theorems are
the round trips: `ntohs_htons`, `inetAddr_dotted` and `inetNtoa_ofBytes`.
-/

set_option autoImplicit false

namespace EChannel

namespace Inet

open CText

/-! ### Byte order -/

/-- The byte at an offset of a number in memory. -/
def byte (n : UInt32) (offset : Nat) : UInt8 := UInt8.ofNat (n.toNat >>> (8 * offset))

/-- The number that has these bytes in memory. -/
def ofBytes (b₀ b₁ b₂ b₃ : UInt8) : UInt32 :=
  UInt32.ofNat (b₀.toNat + 256 * b₁.toNat + 65536 * b₂.toNat + 16777216 * b₃.toNat)

/-- `htonl`. -/
def htonl (n : UInt32) : UInt32 := ofBytes (byte n 3) (byte n 2) (byte n 1) (byte n 0)

/-- `htons`. -/
def htons (n : UInt16) : UInt16 := UInt16.ofNat (n.toNat % 256 * 256 + n.toNat / 256)

/-- `ntohs`. -/
def ntohs (n : UInt16) : UInt16 := htons n

/-! ### Text -/

/-- The value of a digit. -/
def digit (base : Nat) (c : Char) : Option Nat :=
  let v :=
    if '0' ≤ c ∧ c ≤ '9' then c.toNat - 48
    else if 'a' ≤ c ∧ c ≤ 'f' then c.toNat - 87
    else if 'A' ≤ c ∧ c ≤ 'F' then c.toNat - 55
    else base
  if v < base then some v else none

/-- The value of the digits of a number. -/
def number (base : Nat) (s : List Char) : Option Nat :=
  s.foldlM (fun n c => (digit base c).map fun v => base * n + v) 0

/-- A part of an address, as C writes a number. -/
def part : List Char → Option Nat
  | [] => none
  | '0' :: 'x' :: s => number 16 s
  | '0' :: 'X' :: s => number 16 s
  | '0' :: s => number 8 s
  | s => number 10 s

/-- `INADDR_NONE`. -/
def inaddrNone : UInt32 := 4294967295

/-- `inet_addr`. -/
def inetAddr (s : List Char) : UInt32 :=
  match (s.splitOn '.').mapM part with
  | some [a] => if a < 4294967296 then htonl (UInt32.ofNat a) else inaddrNone
  | some [a, b] =>
    if a < 256 ∧ b < 16777216 then htonl (UInt32.ofNat (16777216 * a + b)) else inaddrNone
  | some [a, b, c] =>
    if a < 256 ∧ b < 256 ∧ c < 65536 then
      htonl (UInt32.ofNat (16777216 * a + 65536 * b + c))
    else inaddrNone
  | some [a, b, c, d] =>
    if a < 256 ∧ b < 256 ∧ c < 256 ∧ d < 256 then
      htonl (UInt32.ofNat (16777216 * a + 65536 * b + 256 * c + d))
    else inaddrNone
  | _ => inaddrNone

/-- Four bytes in dotted decimal notation. -/
def dotted (a b c d : UInt8) : List Char :=
  printNat a.toNat ++ '.' :: (printNat b.toNat ++ '.' :: (printNat c.toNat ++ '.' ::
    printNat d.toNat))

/-- `inet_ntoa`. -/
def inetNtoa (s : UInt32) : List Char := dotted (byte s 0) (byte s 1) (byte s 2) (byte s 3)

/-! ### Round trips -/

/-- `htons` exchanges the two bytes. -/
theorem toNat_htons (n : UInt16) : (htons n).toNat = n.toNat % 256 * 256 + n.toNat / 256 := by
  have hlt := n.toNat_lt
  rw [htons, UInt16.toNat_ofNat']
  omega

/-- `ntohs` undoes `htons`. -/
theorem ntohs_htons (n : UInt16) : ntohs (htons n) = n := by
  have hlt := n.toNat_lt
  apply UInt16.toNat_inj.mp
  rw [ntohs, toNat_htons, toNat_htons]
  omega

section
variable (a b c d : UInt8)

/-- The value of an address in memory order. -/
theorem toNat_ofBytes : (ofBytes a b c d).toNat =
    a.toNat + 256 * b.toNat + 65536 * c.toNat + 16777216 * d.toNat := by
  have ha := a.toNat_lt
  have hb := b.toNat_lt
  have hc := c.toNat_lt
  have hd := d.toNat_lt
  rw [ofBytes, UInt32.toNat_ofNat']
  omega

/-- The bytes of a number in memory. -/
theorem byte_ofBytes : byte (ofBytes a b c d) 0 = a ∧ byte (ofBytes a b c d) 1 = b ∧
    byte (ofBytes a b c d) 2 = c ∧ byte (ofBytes a b c d) 3 = d := by
  have ha := a.toNat_lt
  have hb := b.toNat_lt
  have hc := c.toNat_lt
  have hd := d.toNat_lt
  have hbyte : ∀ {v : Nat} {x : UInt8}, v % 256 = x.toNat → UInt8.ofNat v = x := by
    intro v x hv
    apply UInt8.toNat_inj.mp
    rw [UInt8.toNat_ofNat']
    exact hv
  simp only [byte, toNat_ofBytes, Nat.shiftRight_eq_div_pow]
  refine ⟨hbyte ?_, hbyte ?_, hbyte ?_, hbyte ?_⟩ <;> omega

/-- A number with its bytes in the order of writing, in network byte order. -/
theorem htonl_ofNat :
    htonl (UInt32.ofNat (16777216 * a.toNat + 65536 * b.toNat + 256 * c.toNat + d.toNat)) =
      ofBytes a b c d := by
  have hhost : UInt32.ofNat (16777216 * a.toNat + 65536 * b.toNat + 256 * c.toNat + d.toNat) =
      ofBytes d c b a := by
    rw [ofBytes]
    congr 1
    omega
  obtain ⟨h₀, h₁, h₂, h₃⟩ := byte_ofBytes d c b a
  rw [hhost, htonl, h₀, h₁, h₂, h₃]

/-- The addresses are different if a byte is. -/
theorem ofBytes_inj {a' b' c' d' : UInt8} (h : ofBytes a b c d = ofBytes a' b' c' d') :
    a = a' ∧ b = b' ∧ c = c' ∧ d = d' := by
  obtain ⟨h₀, h₁, h₂, h₃⟩ := byte_ofBytes a b c d
  obtain ⟨h₀', h₁', h₂', h₃'⟩ := byte_ofBytes a' b' c' d'
  rw [h] at h₀ h₁ h₂ h₃
  exact ⟨h₀.symm.trans h₀', h₁.symm.trans h₁', h₂.symm.trans h₂', h₃.symm.trans h₃'⟩

/-- The characters of an address are digits and dots. -/
theorem mem_dotted {x : Char} (h : x ∈ dotted a b c d) : x.isDigit = true ∨ x = '.' := by
  have hprint : ∀ n, x ∈ printNat n → x.isDigit = true := fun n hn => printNat_isDigit n x hn
  simp only [dotted, List.mem_append, List.mem_cons] at h
  rcases h with h | h | h | h | h | h | h
  · exact Or.inl (hprint _ h)
  · exact Or.inr h
  · exact Or.inl (hprint _ h)
  · exact Or.inr h
  · exact Or.inl (hprint _ h)
  · exact Or.inr h
  · exact Or.inl (hprint _ h)

/-- Neither a separator nor a place marker nor NUL is in an address. -/
theorem notMem_dotted {x : Char} (hdigit : x.isDigit = false) (hdot : x ≠ '.') :
    x ∉ dotted a b c d := by
  intro h
  rcases mem_dotted a b c d h with h | h
  · rw [hdigit] at h
    cases h
  · exact hdot h

/-- An address is a word. -/
theorem isWord_dotted : IsWord (dotted a b c d) where
  ne_nil := by simp [dotted]
  noSpace x hx := by
    rcases mem_dotted a b c d hx with hd | rfl
    · exact isspace_of_isDigit hd
    · decide
  noNul := notMem_dotted a b c d (by decide) (by decide)

/-- An address has 15 characters at most. -/
theorem length_dotted : (dotted a b c d).length ≤ 15 := by
  have hbyte : ∀ x : UInt8, (printNat x.toNat).length < 4 := fun x =>
    length_printNat_lt (k := 3) (Nat.lt_of_lt_of_le x.toNat_lt (by decide)) (by decide)
  have ha := hbyte a
  have hb := hbyte b
  have hc := hbyte c
  have hd := hbyte d
  simp only [dotted, List.length_append, List.length_cons]
  omega

/-- A byte in decimal notation has no leading zero, so it is read as it was printed. -/
theorem part_printNat : part (printNat a.toNat) = some a.toNat := by
  have hall : ∀ n : Fin 256, part (printNat n.val) = some n.val := by decide +kernel
  exact hall ⟨a.toNat, a.toNat_lt⟩

/-- A printed number has no dot. -/
theorem dot_notMem_printNat (n : Nat) : '.' ∉ printNat n := fun h =>
  absurd (printNat_isDigit n '.' h) (by decide)

/-- The parts of an address in dotted decimal notation. -/
theorem splitOn_dotted : (dotted a b c d).splitOn '.' =
    [printNat a.toNat, printNat b.toNat, printNat c.toNat, printNat d.toNat] := by
  rw [dotted, List.splitOn_append_cons_self_of_not_mem (dot_notMem_printNat _),
    List.splitOn_append_cons_self_of_not_mem (dot_notMem_printNat _),
    List.splitOn_append_cons_self_of_not_mem (dot_notMem_printNat _),
    List.splitOn_eq_singleton (dot_notMem_printNat _)]

/-- `inet_addr` reads four bytes back. -/
theorem inetAddr_dotted : inetAddr (dotted a b c d) = ofBytes a b c d := by
  have hparts : ((dotted a b c d).splitOn '.').mapM part =
      some [a.toNat, b.toNat, c.toNat, d.toNat] := by
    simp [splitOn_dotted, part_printNat]
  rw [inetAddr, hparts]
  dsimp only
  rw [if_pos ⟨a.toNat_lt, b.toNat_lt, c.toNat_lt, d.toNat_lt⟩, htonl_ofNat]

/-- `inet_ntoa` prints the bytes in the order of writing. -/
theorem inetNtoa_ofBytes : inetNtoa (ofBytes a b c d) = dotted a b c d := by
  obtain ⟨h₀, h₁, h₂, h₃⟩ := byte_ofBytes a b c d
  rw [inetNtoa, h₀, h₁, h₂, h₃]

end

-- The other notations of the same address.
example : inetAddr "10.0.0.1".toList = inetAddr "10.1".toList ∧
    inetAddr "10.0.0.1".toList = inetAddr "012.0x0.1".toList ∧
    inetAddr "10.0.0.256".toList = inaddrNone := by decide

end Inet

end EChannel
